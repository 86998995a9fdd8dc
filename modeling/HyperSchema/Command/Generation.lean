import HyperSchema.Analysis
import HyperSchema.Command.Configuration
import HyperSchema.Endpoint.Encode
import HyperSchema.Json.Reader

/-!
# Generation of files

From a hyperschema document to the files that a client generator reads.  This file defines:

* `Generation.outputs`, the files for an analysis;
* `Generation.Report`, what a run tells about itself;
* `Generation.run`, a run in a file system.

Nothing is written unless the analysis succeeds.
-/

namespace HyperSchema

namespace Generation

/-- The name of the file with the resources. -/
def resourcesFile : String := "resources.json"

/-- The name of the file with the flat records. -/
def flattenedFile : String := "simplified-schema.json"

/-- The names and contents of the generated files. -/
def outputs (analysis : Analysis) : List (String × String) :=
  [(resourcesFile, (Resource.listJson analysis.resources).pretty),
    (flattenedFile, analysis.flattened.pretty)]

/-! ## Documents -/

/-- How deep the values in a document may nest. -/
def depthLimit : Nat := 127

/-- Whether a source is an address on the network. -/
def isRemote (source : String) : Bool :=
  "http://".toList.isPrefixOf source.toList || "https://".toList.isPrefixOf source.toList

variable {m : Type → Type} [Monad m] [FileAccess m]

/-- The document in a file. -/
def readDocument (source : String) : Attempt m Json := do
  if isRemote source then throw (CommandError.remoteSource source)
  let text ← Attempt.access source (FileAccess.readText source)
  match Json.parse? depthLimit text with
  | some document => return document
  | none => throw (CommandError.json source)

/-- Writes files into a directory, in order; the paths of the files. -/
def writeAll (directory : String) : List (String × String) → Attempt m (List String)
  | [] => return []
  | (name, contents) :: rest => do
      let path := Path.join directory name
      Attempt.access path (FileAccess.writeText path contents)
      return path :: (← writeAll directory rest)

/-! ## Runs -/

/-- What a run tells about itself. -/
structure Report where
  resources : Nat
  endpoints : Nat
  files : List String
deriving DecidableEq, Repr

/-- Reads the document, analyses it and writes the files. -/
def run (config : Configuration) : Attempt m Report := do
  let some source := config.source | throw CommandError.missingSource
  let document ← readDocument source
  let analysis ←
    Attempt.ofExcept CommandError.schema (Analysis.ofDocument config.docsBase document)
  -- Up to here nothing has been written.
  Attempt.access config.outDir (FileAccess.makeDirectories config.outDir)
  let files ← writeAll config.outDir (outputs analysis)
  return {
    resources := analysis.resources.length
    endpoints := (analysis.resources.flatMap Resource.endpoints).length
    files }

end Generation

end HyperSchema
