import HyperSchema.Command.Run

/-!
# The program

This file defines:

* the operations on files of the system that the program runs on;
* `main`, which prints what a call prints and ends with its code.
-/

namespace HyperSchema

/-- The reason that the system gives for an error. -/
def FileError.ofSystem : IO.Error → FileError
  | .noFileOrDirectory .. => .notFound
  | .alreadyExists .. => .alreadyExists
  | .inappropriateType _ code details =>
      if code == 20 then .notDirectory
      else if code == 21 then .isDirectory
      else .other details
  | e => .other (toString e)

/-- What an access to the system gives. -/
def FileError.caught {α : Type} (access : IO α) : IO (Except FileError α) := do
  return (← access.toBaseIO).mapError FileError.ofSystem

/-- The kind of what a path leads to. -/
def FileError.kindAt (path : String) : IO (Option IO.FS.FileType) := do
  match ← (do (← IO.FS.realPath path).metadata : IO IO.FS.Metadata).toBaseIO with
  | .ok found => return some found.type
  | .error _ => return none

instance : FileAccess IO where
  readText path := FileError.caught (IO.FS.readFile path)
  writeText path contents := FileError.caught (IO.FS.writeFile path contents)
  makeDirectory path := FileError.caught (IO.FS.createDir path)
  isDirectory path := return (← FileError.kindAt path) == some .dir
  isFile path := return (← FileError.kindAt path) == some .file

end HyperSchema

/-- Calls the program. -/
def main (words : List String) : IO UInt32 := do
  let outcome ← (HyperSchema.Outcome.ofWords words : IO HyperSchema.Outcome)
  IO.print outcome.output
  IO.eprint outcome.errors
  return outcome.code.toUInt32
