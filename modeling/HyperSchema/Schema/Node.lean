import HyperSchema.Json.Basic

/-!
# Schema nodes

The structural view of a schema.  This file defines:

* `Schema.Node`, the shapes a schema can have, and `Schema.Items`, what an array declares;
* `Json.node`, the shape of a value;
* `Schema.admitsType`, `Schema.properties` and `Schema.required`, the keywords the analyses read;
* `Schema.Shaped`, the keywords that make each shape, and `Schema.shaped_node`, from which the parts
  of a node are found in the value;
* the facts about size on which recursion through unions and arrays rests.

A value has exactly one shape: the first that fits, in the order reference, union, object, array,
leaf.
-/

namespace HyperSchema

namespace Schema

/-- What an array schema says about its items. -/
inductive Items where
  /-- One schema for all items. -/
  | single (schema : Json)
  /-- A schema for each position. -/
  | tuple (schemas : List Json)
  /-- Nothing. -/
  | missing

/-- The shape of a schema. -/
inductive Node where
  /-- A reference to another schema. -/
  | reference (target : String)
  /-- A choice between schemas. -/
  | union (members : List (String × Json)) (branches : List Json)
  /-- A schema with properties, or of the type `object`. -/
  | object (members : List (String × Json))
  /-- A schema with items, or of the type `array`. -/
  | array (members : List (String × Json)) (items : Items)
  /-- Everything else. -/
  | leaf

/-! ## Keywords -/

/-- Whether `type` names a type, alone or in a list. -/
def admitsType (members : Entries Json) (wanted : String) : Bool :=
  match members.get? "type" with
  | some (.string name) => name == wanted
  | some (.array names) => names.any fun name => name.string? == some wanted
  | _ => false

/-- The declared properties of an object schema. -/
def properties (members : Entries Json) : Option (Entries Json) :=
  (members.get? "properties").bind Json.members?

/-- The required names of an object schema. -/
def required (members : Entries Json) : List String :=
  match (members.get? "required").bind Json.items? with
  | some names => names.filterMap Json.string?
  | none => []

/-- What an array schema says about its items. -/
def itemsOf (members : Entries Json) : Items :=
  match members.get? "items" with
  | some (.array schemas) => .tuple schemas
  | some schema => .single schema
  | none => .missing

/-! ## Classification -/

/-- The shape of an object that is neither a reference nor a union. -/
def Node.plain (members : Entries Json) : Node :=
  if members.contains "properties" || admitsType members "object" then .object members
  else if admitsType members "array" || members.contains "items" then
    .array members (itemsOf members)
  else .leaf

/-- The shape of an object. -/
def Node.ofMembers (members : Entries Json) : Node :=
  match members.get? "$ref" with
  | some (.string target) => .reference target
  | _ =>
      match members.get? "anyOf" with
      | some (.array branches) => .union members branches
      | _ => .plain members

end Schema

/-- The shape of a value read as a schema. -/
def Json.node : Json → Schema.Node
  | .object members => Schema.Node.ofMembers members
  | _ => .leaf

/-- Whether a schema admits nothing but `null`. -/
def Json.isNullSchema (schema : Json) : Bool :=
  match schema.node, schema.member? "type" with
  | .leaf, some (.string name) => name == "null"
  | _, _ => false

namespace Schema

/-! ## Shapes and keywords -/

/-- References come before unions, and unions before what the other keywords say. -/
theorem Node.ofMembers_eq (members : Entries Json) :
    Node.ofMembers members =
      match (members.get? "$ref").bind Json.string?, (members.get? "anyOf").bind Json.items? with
      | some target, _ => .reference target
      | none, some branches => .union members branches
      | none, none => .plain members := by
  unfold ofMembers
  rcases members.get? "$ref" with _ | reference <;> rcases members.get? "anyOf" with _ | union
  · rfl
  · cases union <;> rfl
  · cases reference <;> rfl
  · cases reference <;> cases union <;> rfl

theorem Node.plain_eq_object_iff {members : Entries Json} :
    Node.plain members = .object members ↔
      (members.contains "properties" || admitsType members "object") = true := by
  unfold plain
  split
  · rename_i isObject
    exact iff_of_true rfl isObject
  · rename_i noObject
    split <;> exact iff_of_false nofun noObject

/-! ## Where the parts of a node come from -/

/-- The shapes of a value, each with the keywords that make it. -/
inductive Shaped : Json → Node → Prop where
  | reference {members : Entries Json} {target : String} :
      members.get? "$ref" = some (.string target) → Shaped (.object members) (.reference target)
  | union {members : Entries Json} {branches : List Json} :
      members.get? "anyOf" = some (.array branches) →
        Shaped (.object members) (.union members branches)
  | object {members : Entries Json} :
      (members.contains "properties" || admitsType members "object") = true →
        Shaped (.object members) (.object members)
  | array {members : Entries Json} :
      (members.contains "properties" || admitsType members "object") = false →
        Shaped (.object members) (.array members (itemsOf members))
  | leaf (value : Json) : Shaped value .leaf

theorem shaped_plain (members : Entries Json) : Shaped (.object members) (.plain members) := by
  rw [Node.plain]
  split
  · rename_i isObject
    exact .object isObject
  · rename_i noObject
    split
    · exact .array (Bool.not_eq_true _ ▸ noObject)
    · exact .leaf _

theorem shaped_node (schema : Json) : Shaped schema schema.node := by
  cases schema with
  | object members =>
      rw [Json.node, Node.ofMembers]
      split
      · rename_i isReference
        exact .reference isReference
      · split
        · rename_i isUnion
          exact .union isUnion
        · exact shaped_plain members
  | _ => exact .leaf _

theorem shaped_of_node_eq {schema : Json} {node : Node} (h : schema.node = node) :
    Shaped schema node :=
  h ▸ shaped_node schema

theorem eq_object_of_node_union {schema : Json} {members : List (String × Json)}
    {branches : List Json} (h : schema.node = .union members branches) :
    schema = .object members ∧ Entries.get? members "anyOf" = some (.array branches) := by
  cases shaped_of_node_eq h with
  | union isUnion => exact ⟨rfl, isUnion⟩

theorem eq_object_of_node_object {schema : Json} {members : List (String × Json)}
    (h : schema.node = .object members) : schema = .object members := by
  cases shaped_of_node_eq h with
  | object => rfl

theorem eq_object_of_node_array {schema : Json} {members : List (String × Json)} {items : Items}
    (h : schema.node = .array members items) :
    schema = .object members ∧ items = itemsOf members := by
  cases shaped_of_node_eq h with
  | array => exact ⟨rfl, rfl⟩

theorem eq_object_of_node_single {schema item : Json} {members : List (String × Json)}
    (h : schema.node = .array members (.single item)) :
    schema = .object members ∧ Entries.get? members "items" = some item := by
  obtain ⟨rfl, found⟩ := eq_object_of_node_array h
  unfold itemsOf at found
  split at found
  · cases found
  · rename_i present
    cases found
    exact ⟨rfl, present⟩
  · cases found

theorem eq_object_of_node_tuple {schema : Json} {members : List (String × Json)}
    {schemas : List Json} (h : schema.node = .array members (.tuple schemas)) :
    schema = .object members ∧ Entries.get? members "items" = some (.array schemas) := by
  obtain ⟨rfl, found⟩ := eq_object_of_node_array h
  unfold itemsOf at found
  split at found
  · rename_i present
    cases found
    exact ⟨rfl, present⟩
  · cases found
  · cases found

/-! ## Size -/

theorem sizeOf_branches_lt {schema : Json} {members : List (String × Json)} {branches : List Json}
    (h : schema.node = .union members branches) : sizeOf branches < sizeOf schema := by
  obtain ⟨rfl, found⟩ := eq_object_of_node_union h
  have := Entries.sizeOf_get? found
  simp only [Json.object.sizeOf_spec, Json.array.sizeOf_spec] at this ⊢
  omega

theorem sizeOf_single_lt {schema item : Json} {members : List (String × Json)}
    (h : schema.node = .array members (.single item)) : sizeOf item < sizeOf schema := by
  obtain ⟨rfl, found⟩ := eq_object_of_node_single h
  have := Entries.sizeOf_get? found
  simp only [Json.object.sizeOf_spec]
  omega

theorem sizeOf_tuple_lt {schema : Json} {members : List (String × Json)} {schemas : List Json}
    (h : schema.node = .array members (.tuple schemas)) : sizeOf schemas < sizeOf schema := by
  obtain ⟨rfl, found⟩ := eq_object_of_node_tuple h
  have := Entries.sizeOf_get? found
  simp only [Json.object.sizeOf_spec, Json.array.sizeOf_spec] at this ⊢
  omega

end Schema

end HyperSchema
