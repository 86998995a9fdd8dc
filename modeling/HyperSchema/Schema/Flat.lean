import HyperSchema.Schema.Record
import HyperSchema.Schema.Walk

/-!
# Flat documents

A hyperschema document with flat records.  This file defines:

* `Schema.flattenLinkSchema`, the schema of a link without the envelope around its data;
* `Schema.flattenLink` and `Schema.flattenDefinition`;
* `Json.flattened`, a whole document.

An envelope is an object with the property `data` and no other properties than the usual
companions.  References stay; they are looked up only to read the blocks of a record.
-/

namespace HyperSchema

namespace Schema

/-! ## Links -/

/-- The properties that an envelope may have beside its data. -/
def envelopeCompanions : List String := ["meta", "included", "links", "jsonapi"]

/-- The members of a link that hold schemas with envelopes. -/
def envelopeKeys : List String := ["schema", "targetSchema", "jobSchema"]

/-- The data of an envelope with these properties. -/
def envelopeData? (properties : Entries Json) : Option Json :=
  if properties.keys.all fun name => name == "data" || envelopeCompanions.contains name then
    properties.get? "data"
  else none

/-- The data of a schema that is an envelope. -/
def dataOfEnvelope? (schema : Json) : Option Json :=
  match schema.node with
  | .object members => (properties members).bind envelopeData?
  | _ => none

/-- The schema of a link: the data of an envelope with flat records, anything else as it is. -/
def flattenLinkSchema (root schema : Json) (path : String) : Checked Json :=
  match dataOfEnvelope? schema with
  | some data => mapObjects (flattenRecord root) data (propertyPath path "data")
  | none => pure schema

/-- A link with the schemas under the given names flattened. -/
def flattenLinkSchemas (root : Json) (path : String) (link : Entries Json) :
    List String → Entries Json → Checked (Entries Json)
  | [], flat => pure flat
  | name :: rest, flat =>
      match link.get? name with
      | none => flattenLinkSchemas root path link rest flat
      | some schema => do
          let schema ← flattenLinkSchema root schema (path ++ "/" ++ name)
          flattenLinkSchemas root path link rest (flat.insert name schema)

/-- A link with its schemas flattened. -/
def flattenLink (root link : Json) (path : String) : Checked Json :=
  match link with
  | .object members => return .object (← flattenLinkSchemas root path members envelopeKeys members)
  | _ => pure link

/-- The links from position `i` on. -/
def flattenLinks (root : Json) (path : String) : Nat → List Json → Checked (List Json)
  | _, [] => pure []
  | i, link :: rest => do
      let link ← flattenLink root link (path ++ "/links/" ++ toString i)
      return link :: (← flattenLinks root path (i + 1) rest)

/-! ## Definitions -/

/-- A definition without its links: a record is flattened, anything else is kept. -/
def flattenMembers (root : Json) (members : Entries Json) (path : String) :
    Checked (Entries Json) :=
  match (Json.object members).node with
  | .object _ => flattenRecord root members path
  | _ => pure members

/-- A definition with its links flattened. -/
def flattenDefinition (root definition : Json) (path : String) : Checked Json :=
  match definition with
  | .object members => do
      let flat ← flattenMembers root members path
      match Entries.get? members "links" with
      | some (.array links) =>
          return .object (Entries.insert flat "links" (.array (← flattenLinks root path 0 links)))
      | _ => return .object flat
  | _ => pure definition

/-- The address of a definition. -/
def definitionPath (name : String) : String := "#/definitions/" ++ name

/-- Each of some definitions, flattened. -/
def flattenDefinitions (root : Json) : List (String × Json) → Checked (List (String × Json))
  | [] => pure []
  | (name, definition) :: rest => do
      let definition ← flattenDefinition root definition (definitionPath name)
      return (name, definition) :: (← flattenDefinitions root rest)

/-! ## Documents -/

/-- The definitions of a document. -/
def definitions (document : Json) : Except SchemaError (Entries Json) :=
  match document with
  | .object members =>
      match (Entries.get? members "definitions").bind Json.members? with
      | some found => .ok found
      | none => .error (.faultyDocument .missingDefinitions)
  | _ => .error (.faultyDocument .rootNotObject)

end Schema

/-- A document with flat records in its definitions and links. -/
def Json.flattened (document : Json) : Checked Json := do
  let found ← Checked.ofExcept (Schema.definitions document)
  let flat ← Schema.flattenDefinitions document found
  return .object (Entries.insert (document.members?.getD []) "definitions" (.object flat))

end HyperSchema
