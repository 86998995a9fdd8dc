import HyperSchema.Command.Generation
import HyperSchema.Command.Line
import HyperSchema.Command.ApplyRules

/-!
# Runs of the program

What happens when the program is called.  This file defines:

* `Outcome`, what a call prints and the code it ends with;
* `Invocation.run`, a command in a file system;
* `Outcome.ofWords`, a call with a command line.
-/

namespace HyperSchema

/-- What a call prints and the code it ends with. -/
structure Outcome where
  code : Nat
  output : String
  errors : String
deriving DecidableEq, Repr

namespace Outcome

/-- A call that succeeds. -/
def success (output : String) : Outcome := ⟨0, output, ""⟩

/-- A call that fails for a reason. -/
def failure (error : CommandError) : Outcome := ⟨1, "", error.message ++ "\n"⟩

/-- How the program is called. -/
def usage : String :=
  "Usage: hypergen [--config <PATH>] <COMMAND>\n\n" ++
    "Commands:\n" ++
    "  generate [--source <URL_OR_PATH>] [--out-dir <DIR>] [--docs-base-url <URL>] " ++
      "[--timeout <SECS>]\n" ++
    "  rewrite --input <PATH> --output <PATH>\n"

/-- The name and the version of the program. -/
def version : String := "hypergen 0.1.0\n"

/-- The lines about files that are written. -/
def written (paths : List String) : String :=
  String.join (paths.map fun path => "wrote " ++ path ++ "\n")

end Outcome

variable {m : Type → Type} [Monad m] [FileAccess m]

/-- Runs a command; the paths of the files it wrote. -/
def Invocation.run (invocation : Invocation) : Attempt m (List String) := do
  let config ← Configuration.resolve invocation.config
  match invocation.command with
  | .generate overrides => return (← Generation.run (config.apply overrides)).files
  | .applyRules input output => do
      ApplyRules.run input output config.rules
      return [output]

/-- Calls the program with a command line. -/
def Outcome.ofWords (words : List String) : m Outcome := do
  match Request.ofWords words with
  | .version => return .success version
  | .help => return .success usage
  | .invalid => return ⟨2, "", usage⟩
  | .run invocation => do
      match ← invocation.run.run with
      | .ok paths => return .success (written paths)
      | .error e => return .failure e

end HyperSchema
