import HyperSchema.Command.Error
import HyperSchema.Declaration.RuleSet

/-!
# Configuration

What commands are told beside their arguments.  This file defines:

* `Configuration`, with `Configuration.standard` and `Configuration.ofToml?`;
* `Configuration.load` and `Configuration.resolve`, the configuration in a file;
* `Overrides` and `Configuration.apply`, what the command line says instead.

Every key may be left out; a key that is not known is an error.
-/

namespace HyperSchema

/-- What commands are told beside their arguments. -/
structure Configuration where
  /-- Where the document is. -/
  source : Option String
  /-- The directory for the generated files. -/
  outDir : String
  /-- Where the documentation of the endpoints is. -/
  docsBase : Option String
  /-- How long the document may take to arrive, in seconds. -/
  fetchTimeout : Nat
  rules : RuleSet
deriving DecidableEq, Repr

/-- What the command line says instead of the configuration. -/
structure Overrides where
  source : Option String := none
  outDir : Option String := none
  docsBase : Option String := none
  fetchTimeout : Option Nat := none
deriving DecidableEq, Repr

namespace Configuration

/-- The configuration without a file. -/
def standard : Configuration where
  source := none
  outDir := "generated"
  docsBase := none
  fetchTimeout := 30
  rules := .standard

/-- The keys of a configuration. -/
def keys : List String := ["source", "out_dir", "docs_base_url", "fetch_timeout_secs", "rules"]

/-- Reads a configuration. -/
def ofEntries? (entries : Entries Setting) : Option Configuration := do
  guard (entries.keys.all keys.contains)
  return {
    source := ← Setting.field entries "source" (fun found => found.text?.map some) standard.source
    outDir := ← Setting.field entries "out_dir" Setting.text? standard.outDir
    docsBase :=
      ← Setting.field entries "docs_base_url" (fun found => found.text?.map some) standard.docsBase
    fetchTimeout :=
      ← Setting.field entries "fetch_timeout_secs" Setting.natural? standard.fetchTimeout
    rules := ← Setting.field entries "rules" (RuleSet.ofSetting? true) standard.rules }

/-- Reads the text of a configuration file. -/
def ofToml? (text : String) : Option Configuration :=
  (Toml.parse? text).bind ofEntries?

/-! ## Files -/

/-- The file that is read when no other is named. -/
def fileName : String := "hypergen.toml"

variable {m : Type → Type} [Monad m] [FileAccess m]

/-- The configuration in a file. -/
def load (path : String) : Attempt m Configuration := do
  let text ← Attempt.access path (FileAccess.readText path)
  match ofToml? text with
  | some config => return config
  | none => throw (CommandError.config path)

/-- The configuration in the named file, in the usual one if there is one, or the standard one. -/
def resolve (path : Option String) : Attempt m Configuration := do
  match path with
  | some path => load path
  | none =>
      if ← (FileAccess.isFile fileName : m Bool) then load fileName else return standard

/-! ## Overrides -/

/-- The configuration with what the command line says instead. -/
def apply (config : Configuration) (overrides : Overrides) : Configuration :=
  { config with
    source := overrides.source.or config.source
    outDir := overrides.outDir.getD config.outDir
    docsBase := overrides.docsBase.or config.docsBase
    fetchTimeout := overrides.fetchTimeout.getD config.fetchTimeout }

end Configuration

end HyperSchema
