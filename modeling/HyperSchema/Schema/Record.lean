import HyperSchema.Schema.Node
import HyperSchema.Schema.Reference
import HyperSchema.Warning

/-!
# Flat records

A record schema keeps its fields in two blocks, `attributes` and `relationships`.  This file
defines:

* `Schema.Block`, what a record says about one of its blocks, and `Schema.block`;
* `Schema.relationshipData`, the schema of a relationship without its wrapper;
* `Schema.addProperties`, properties behind others, with a warning where one replaces another;
* `Schema.flattenRecord`, a record schema with the fields of both blocks one level up.

A flat record has the properties `id` and `type`, those of the attributes, those of the
relationships and `meta`, in this order.  A schema without either block is left alone.
-/

namespace HyperSchema.Schema

/-! ## Blocks -/

/-- The name of the block of attributes. -/
def attributesBlock : String := "attributes"

/-- The name of the block of relationships. -/
def relationshipsBlock : String := "relationships"

/-- The number of values that are looked at on the way from a block to what it refers to. -/
def referenceSteps : Nat := 16

/-- What a value stands for, when at most `steps` values are looked at on the way. -/
def follow? (root : Json) : Nat → Json → Option Json
  | 0, _ => none
  | steps + 1, value =>
      match value.reference? with
      | none => some value
      | some reference => (root.target? reference).bind (follow? root steps)

/-- What a record says about one of its blocks. -/
inductive Block where
  /-- Nothing. -/
  | absent
  /-- A schema that is no object. -/
  | noObject
  /-- An object. -/
  | object (members : List (String × Json))

namespace Block

/-- The block that a schema describes. -/
def ofValue (value : Json) : Block :=
  match value.members? with
  | some members => .object members
  | none => .noObject

/-- The properties of a block, if it declares any. -/
def properties? : Block → Option (Entries Json)
  | object members => Schema.properties members
  | _ => none

/-- The required names of a block. -/
def required : Block → List String
  | object members => Schema.required members
  | _ => []

/-- Whether a block is there and does not say which properties it has. -/
def isOpen : Block → Bool
  | absent => false
  | block => block.properties?.isNone

end Block

/-- The address of a property. -/
def propertyPath (path name : String) : String := path ++ "/properties/" ++ name

/-- The block of a record under a name, read through its references. -/
def block (root : Json) (properties : Entries Json) (path name : String) :
    Except SchemaError Block :=
  match properties.get? name with
  | none => .ok .absent
  | some schema =>
      match follow? root referenceSteps schema with
      | some value => .ok (.ofValue value)
      | none => .error (.shapeAt (propertyPath path name) schema)

/-! ## Relationships -/

/-- A schema with a description, unless it has one or has a reference. -/
def describe (description : Option Json) (schema : Json) : Json :=
  match description, schema with
  | some text, .object members =>
      -- Members beside a reference mean nothing, so a description there would be lost.
      if Entries.contains members "description" || Entries.contains members "$ref" then schema
      else .object (Entries.insert members "description" text)
  | _, _ => schema

/-- The schema under `data` in place of an object around it; the description of the object goes with
it.  Every other schema is kept. -/
def relationshipData (schema : Json) : Json :=
  match schema.node with
  | .object members =>
      match (properties members).bind fun found => found.get? "data" with
      | some data => describe (Entries.get? members "description") data
      | none => schema
  | _ => schema

/-! ## Properties -/

/-- Adds properties to others one by one.  A property that replaces an earlier one is reported. -/
def addProperties (path : String) : Entries Json → List (String × Json) → Noted (Entries Json)
  | flat, [] => pure flat
  | flat, (name, schema) :: rest => do
      if flat.contains name then Noted.warn (.shadowedProperty path name)
      addProperties path (flat.insert name schema) rest

/-- The entries of a map under some names, in the order of the names. -/
def select (entries : Entries Json) (names : List String) : Entries Json :=
  names.filterMap fun name => (entries.get? name).map fun value => (name, value)

/-- The properties that a block of attributes adds. -/
def Block.attributeEntries (block : Block) : Entries Json :=
  block.properties?.getD []

/-- The properties that a block of relationships adds. -/
def Block.relationshipEntries (block : Block) : Entries Json :=
  (block.properties?.getD []).map fun (name, schema) => (name, relationshipData schema)

/-! ## Required names -/

/-- The required names of a flat record: those of the blocks that are required, and `meta`. -/
def flatRequired (required : List String) (hasMeta : Bool) (attributes relationships : Block) :
    List String :=
  ((if required.contains attributesBlock then attributes.required else []) ++
    (if required.contains relationshipsBlock then relationships.required else []) ++
    (if hasMeta && required.contains "meta" then ["meta"] else [])).eraseDups

/-! ## Records -/

/-- The members of a flat record.  What it requires and whether it is open stands at the end. -/
def flatMembers (members flat : Entries Json) (required : List String) (isOpen : Bool) :
    Entries Json :=
  (members.filter fun (name, _) => name != "required" && name != "additionalProperties").map
    (fun (name, value) => (name, if name == "properties" then .object flat else value)) ++
    (if required.isEmpty then [] else [("required", .array (required.map Json.string))]) ++
    [("additionalProperties", .bool isOpen)]

/-- A record with the given properties, at least one block among them, as a flat record. -/
def flattenBlocks (root : Json) (members props : Entries Json) (path : String) :
    Checked (Entries Json) := do
  -- The order of the steps is that of the warnings and of the first error.
  let attributes ← Checked.ofExcept (block root props path attributesBlock)
  let flat ← addProperties path (select props ["id", "type"]) attributes.attributeEntries
  let relationships ← Checked.ofExcept (block root props path relationshipsBlock)
  let flat ← addProperties path flat relationships.relationshipEntries
  let flat := match props.get? "meta" with
    | some schema => flat.insert "meta" schema
    | none => flat
  return flatMembers members flat
    (flatRequired (required members) (props.contains "meta") attributes relationships)
    attributes.isOpen

/-- A record schema with the fields of both blocks one level up.  A schema without either block is
left alone. -/
def flattenRecord (root : Json) (members : List (String × Json)) (path : String) :
    Checked (List (String × Json)) :=
  match properties members with
  | none => pure members
  | some props =>
      if props.contains attributesBlock || props.contains relationshipsBlock then
        flattenBlocks root members props path
      else pure members

end HyperSchema.Schema
