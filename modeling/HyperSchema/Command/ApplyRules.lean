import HyperSchema.Command.Error
import HyperSchema.Declaration.Generic

/-!
# Applying rules to files

This file defines:

* `ApplyRules.run`, which applies rules to the declarations in a file and writes another one.

The other file is touched only if the rules can be applied.
-/

namespace HyperSchema.ApplyRules

variable {m : Type → Type} [Monad m] [FileAccess m]

/-- Makes the directory that a file stands in. -/
def makeRoom (output : String) : Attempt m Unit :=
  match Path.parent? output with
  | some directory =>
      if directory.isEmpty then pure ()
      else Attempt.access directory (FileAccess.makeDirectories directory)
  | none => pure ()

/-- Applies rules to the declarations in one file and writes the result into another. -/
def run (input output : String) (rules : RuleSet) : Attempt m Unit := do
  let table ← Attempt.ofExcept CommandError.declaration (RuleTable.ofSet rules)
  let text ← Attempt.access input (FileAccess.readText input)
  let result ← Attempt.ofExcept CommandError.declaration (table.applyToText text)
  makeRoom output
  Attempt.access output (FileAccess.writeText output result)

end HyperSchema.ApplyRules
