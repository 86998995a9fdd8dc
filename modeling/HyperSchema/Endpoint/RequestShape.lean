import HyperSchema.Endpoint.Ambiguity
import HyperSchema.Schema.Reference
import HyperSchema.Schema.Record
import HyperSchema.Schema.Walk

/-!
# The shape of a request body

What is known about the record in a request body.  This file defines:

* `RecordType` and `Fields`, which may be left open, each with `combine` for several records;
* `RequestShape`, the type of the record and the names of its fields;
* `RequestShape.ofBody`, which reads the shape off the schema of a body;
* `RequestShape.ambiguity?`, why flat arguments cannot be told apart.

A body is read through unions and arrays.  What one of several records leaves open, the shape leaves
open.
-/

namespace HyperSchema

/-- The type of the record in a request. -/
inductive RecordType where
  /-- One type. -/
  | only (name : String)
  /-- Any type. -/
  | any
deriving DecidableEq, Repr

/-- The fields in a block of the record in a request. -/
inductive Fields where
  /-- The fields with these names. -/
  | known (names : List String)
  /-- Any fields. -/
  | any
deriving DecidableEq, Repr

/-- What is known about the record in a request. -/
structure RequestShape where
  recordType : RecordType
  attributes : Fields
  relationships : Fields
deriving DecidableEq, Repr

/-! ## Several records -/

/-- The type that all of some records have. -/
def RecordType.combine : List RecordType → RecordType
  | [] => .any
  | first :: rest => if rest.all fun other => other == first then first else .any

/-- Adds a name at the end, unless it is there already. -/
def Fields.addName (names : List String) (name : String) : List String :=
  if name ∈ names then names else names ++ [name]

/-- The fields of two records together: the new ones of the second record go to the end.  They are
open if one of the records leaves them open. -/
def Fields.merge : Fields → Fields → Fields
  | known names, known others => .known (others.foldl addName names)
  | _, _ => .any

/-- The fields that some records have together.  Without any record nothing is known about them. -/
def Fields.combine : List Fields → Fields
  | [] => .any
  | first :: rest => rest.foldl merge first

namespace RequestShape

open Schema

/-! ## One record -/

/-- The type that the schema of a type admits, if it admits one only. -/
def constant? (schema : Json) : Option String :=
  match schema.member? "const" with
  | some (.string name) => some name
  | _ =>
      match schema.member? "enum" with
      | some (.array [.string name]) => some name
      | _ => none

/-- The type that a record pins down. -/
def typeOf (members : Entries Json) : RecordType :=
  match ((properties members).bind fun found => found.get? "type").bind constant? with
  | some name => .only name
  | none => .any

/-- The names of the properties that an object declares, each one once. -/
def propertyNames (members : Entries Json) (path : String) : Except SchemaError Fields :=
  match properties members with
  | some found => .ok (.known found.keys.eraseDups)
  | none => .error (.noProperties path)

/-- The declared fields of a block.  It is open from the first object on that declares none. -/
def blockFields (schema : Json) (path : String) : Except SchemaError Fields :=
  match schema.node with
  | .reference _ => .ok .any
  | _ =>
      match gatherObjects propertyNames schema path with
      | .ok sets => .ok (Fields.combine sets)
      | .error (.noProperties _) => .ok .any
      | .error e => .error e

/-- The fields in a block of a record; a record without the block has none in it. -/
def fieldsUnder (block : String) (members : Entries Json) (path : String) :
    Except SchemaError Fields :=
  match (properties members).bind fun found => found.get? block with
  | some schema => blockFields schema (propertyPath path block)
  | none => .ok (.known [])

/-! ## Bodies -/

/-- The schema of the data in a request body. -/
def data? (body : Json) : Option Json :=
  (body.members?.bind properties).bind fun found => found.get? "data"

/-- The shape of the records that a schema describes. -/
def ofData (data : Json) (path : String) : Except SchemaError RequestShape := do
  let types ← gatherObjects (fun members _ => pure (typeOf members)) data path
  let attributes ← gatherObjects (fieldsUnder attributesBlock) data path
  let relationships ← gatherObjects (fieldsUnder relationshipsBlock) data path
  return {
    recordType := RecordType.combine types
    attributes := Fields.combine attributes
    relationships := Fields.combine relationships }

/-- The shape of a request body; a body without data has none. -/
def ofBody (body : Json) (path : String) : Except SchemaError (Option RequestShape) :=
  match data? body with
  | some data => (ofData data (propertyPath path "data")).map some
  | none => .ok none

/-! ## Ambiguity -/

/-- Why flat arguments cannot be told apart. -/
def ambiguity? (shape : RequestShape) : Option Ambiguity :=
  match shape.recordType, shape.attributes, shape.relationships with
  | .any, _, _ => some .severalTypes
  | .only _, .any, .any => some .unknownFields
  | .only _, .known attributes, .known relationships =>
      match attributes.filter relationships.contains with
      | [] => none
      | shared => some (.sharedNames shared)
  | .only _, _, _ => none

end RequestShape

end HyperSchema
