import HyperSchema.Declaration.Rule
import HyperSchema.Files.Access
import HyperSchema.Schema.Error

/-!
# Errors of commands

This file defines:

* `CommandError`, why a command fails;
* `CommandError.message`, the wording of each cause;
* `Attempt m α`, a step of a command, and the steps that access files.
-/

namespace HyperSchema

/-- Why a command fails. -/
inductive CommandError where
  /-- No document is named. -/
  | missingSource
  /-- The document is not a local file. -/
  | remoteSource (address : String)
  | access (path : String) (error : FileError)
  | config (path : String)
  | json (path : String)
  | schema (error : SchemaError)
  | declaration (error : DeclarationError)
deriving DecidableEq, Repr

/-- The wording of an error. -/
def CommandError.message : CommandError → String
  | missingSource =>
      "No hyperschema source configured. Pass --source or set \x60source\x60 in hypergen.toml."
  | remoteSource address => "Failed to fetch " ++ address
  | access path error => "Failed to access " ++ path ++ ": " ++ error.message
  | config path => "Invalid config file " ++ path
  | json path => "Invalid JSON from " ++ path
  | schema error => error.message
  | declaration error => error.message

/-! ## Steps -/

/-- A step of a command. -/
abbrev Attempt (m : Type → Type) (α : Type) := ExceptT CommandError m α

namespace Attempt

variable {m : Type → Type} [Monad m] {α : Type}

/-- A step that accesses a path. -/
def access (path : String) (step : m (Except FileError α)) : Attempt m α :=
  ExceptT.mk do return (← step).mapError (CommandError.access path)

/-- A step that needs no files. -/
def ofExcept {ε : Type} (cause : ε → CommandError) (result : Except ε α) : Attempt m α :=
  ExceptT.mk (pure (result.mapError cause))

end Attempt

end HyperSchema
