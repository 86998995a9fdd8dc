import HyperSchema.Files.Path

/-!
# Access to files

What the commands need to know of a file system.  This file defines:

* `FileError`, why access to a file fails, and `FileError.message`;
* `FileAccess`, the operations on files, in any monad;
* `FileAccess.makeDirectories`, a directory with those above it.
-/

namespace HyperSchema

/-- Why access to a file fails. -/
inductive FileError where
  | notFound
  | alreadyExists
  | notDirectory
  | isDirectory
  | nameTooLong
  /-- A path with a character that no name may have. -/
  | nulInPath
  /-- Any other reason that a system gives. -/
  | other (text : String)
deriving DecidableEq, Repr

/-- The wording of an error, with the number that systems use for it. -/
def FileError.message : FileError → String
  | notFound => "No such file or directory (os error 2)"
  | alreadyExists => "File exists (os error 17)"
  | notDirectory => "Not a directory (os error 20)"
  | isDirectory => "Is a directory (os error 21)"
  | nameTooLong => "File name too long (os error 36)"
  | nulInPath => "file name contained an unexpected NUL byte"
  | other text => text

/-- The operations on files. -/
class FileAccess (m : Type → Type) where
  /-- The contents of a file. -/
  readText : String → m (Except FileError String)
  /-- Writes a file, over an earlier one if there is one. -/
  writeText : String → String → m (Except FileError Unit)
  /-- Makes a directory in one that exists. -/
  makeDirectory : String → m (Except FileError Unit)
  /-- Whether a path leads to a directory. -/
  isDirectory : String → m Bool
  /-- Whether a path leads to a file. -/
  isFile : String → m Bool

namespace FileAccess

variable {m : Type → Type} [Monad m] [FileAccess m]

/-- Makes a directory; one that exists already will do. -/
def ensureDirectory (path : String) : m (Except FileError Unit) := do
  match ← makeDirectory path with
  | .ok () => return .ok ()
  | .error e => return if ← isDirectory path then .ok () else .error e

/-- Makes the first of some directories, and the others first where it cannot be found. -/
def makeFirst : List String → m (Except FileError Unit)
  | [] => return .ok ()
  | path :: above => do
      match ← makeDirectory path with
      | .ok () => return .ok ()
      -- Only a missing directory above is worth another attempt.
      | .error .notFound => do
          match ← makeFirst above with
          | .ok () => ensureDirectory path
          | .error e => return .error e
      | .error e => return if ← isDirectory path then .ok () else .error e

/-- Makes a directory and those above it, as far as they are missing. -/
def makeDirectories (path : String) : m (Except FileError Unit) :=
  makeFirst (Path.ancestors path)

end FileAccess

end HyperSchema
