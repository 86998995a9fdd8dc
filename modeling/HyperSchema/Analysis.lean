import HyperSchema.Endpoint.Resources
import HyperSchema.Schema.Inline

/-!
# Analysis of a document

What a client generator needs of a hyperschema document.  This file defines:

* `Analysis`, the resources of a document and the document with flat records;
* `Analysis.ofDocument`, the analysis of a document.

The resources are read where all references are inlined, the flat records where none is.
-/

namespace HyperSchema

/-- What a client generator needs of a document. -/
structure Analysis where
  resources : List Resource
  flattened : Json

/-- Analyses a document: the resources with its references inlined, the flat records without. -/
def Analysis.ofDocument (docsBase : Option String) (document : Json) :
    Except SchemaError Analysis := do
  let resources ← (document.inlined.value.resources docsBase).result
  let flattened ← document.flattened.result
  return { resources, flattened }

end HyperSchema
