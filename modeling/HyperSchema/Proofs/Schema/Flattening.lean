import HyperSchema.Proofs.Outcome
import HyperSchema.Schema.Record

/-!
# Flattening — what a flat record consists of

The members of a flat record, and the names of its properties in terms of the record that it was
made from.  This file defines:

* `Schema.node_eq_object_iff`, the members by which an object schema is told;
* `Schema.get?_flatMembers`, the members of a flat record;
* `Schema.fieldNames`, the names in a block, and `Schema.flatNames`, those in a flat record;
* `Schema.flatProperties` and `Schema.blocks_of_flattenBlocks`, what a flat record is made from;
* `Schema.mem_flatProperties`, where a property of a flat record comes from;
* `Schema.properties_of_flattenRecord`: a flat record has the properties `flatNames`.
-/

namespace HyperSchema.Schema

/-! ## Object schemas -/

/-- The members that make a schema an object schema. -/
theorem node_eq_object_iff {members : Entries Json} :
    (Json.object members).node = .object members ↔
      referenceIn? members = none ∧ (members.get? "anyOf").bind Json.items? = none ∧
        (members.contains "properties" || admitsType members "object") = true := by
  show Node.ofMembers members = .object members ↔ _
  rw [Node.ofMembers_eq, referenceIn?]
  cases (members.get? "$ref").bind Json.string? with
  | some target => exact iff_of_false nofun nofun
  | none =>
      cases (members.get? "anyOf").bind Json.items? with
      | some branches => exact iff_of_false nofun nofun
      | none =>
          rw [Node.plain_eq_object_iff]
          exact ⟨fun isObject => ⟨rfl, rfl, isObject⟩, fun all => all.2.2⟩

/-- Whether a schema is an object schema depends on these members only. -/
theorem node_object_congr {members others : Entries Json}
    (same : ∀ key ∈ ["$ref", "anyOf", "properties", "type"], members.get? key = others.get? key) :
    (Json.object members).node = .object members ↔ (Json.object others).node = .object others := by
  rw [node_eq_object_iff, node_eq_object_iff]
  simp only [List.forall_mem_cons, List.not_mem_nil, false_imp_iff, implies_true, and_true] at same
  rcases same with ⟨reference, union, props, type⟩
  rw [referenceIn?, referenceIn?, Entries.contains, Entries.contains, admitsType, admitsType,
    reference, union, props, type]

/-- The properties of a schema are a member of it. -/
theorem get?_of_properties {members props : Entries Json}
    (found : properties members = some props) :
    members.get? "properties" = some (.object props) := by
  rcases Option.bind_eq_some_iff.1 found with ⟨value, declared, isMap⟩
  cases value with
  | object props' =>
      cases isMap
      exact declared
  | _ => cases isMap

/-! ## Members of a flat record -/

theorem get?_flatMembers (members flat : Entries Json) (required : List String) (isOpen : Bool)
    (key : String) :
    (flatMembers members flat required isOpen).get? key =
      if key = "additionalProperties" then some (.bool isOpen)
      else if key = "required" then
        if required.isEmpty then none else some (.array (required.map Json.string))
      else (members.get? key).map fun value =>
        if key == "properties" then .object flat else value := by
  have kept := Entries.get?_filter
    (fun name => name != "required" && name != "additionalProperties") members key
  have renewed := Entries.get?_map
    (fun name value => if name == "properties" then Json.object flat else value)
    (members.filter fun entry => entry.1 != "required" && entry.1 != "additionalProperties") key
  rw [flatMembers, Entries.get?_append, Entries.get?_append, renewed, kept]
  -- The two names that are left out in front stand at the end.
  by_cases closed : key = "additionalProperties"
  · subst closed
    cases required <;> simp
  · by_cases names : key = "required"
    · subst names
      cases required <;> simp
    · cases required <;> simp [closed, names, Ne.symm names, Ne.symm closed]

/-- The properties of a flat record. -/
theorem properties_flatMembers {members flat props : Entries Json} {required : List String}
    {isOpen : Bool} (found : properties members = some props) :
    properties (flatMembers members flat required isOpen) = some flat := by
  rw [properties, get?_flatMembers, get?_of_properties found]
  rfl

/-! ## Names of properties -/

/-- The names of the properties that a block declares. -/
def Block.names (block : Block) : List String :=
  Entries.keys (block.properties?.getD [])

/-- The names that a record declares in the block under a name. -/
def fieldNames (root : Json) (props : Entries Json) (name : String) : List String :=
  match (props.get? name).bind (follow? root referenceSteps) with
  | some value => (Block.ofValue value).names
  | none => []

/-- The names of the properties of a schema with the given properties after flattening. -/
def flatNames (root : Json) (props : Entries Json) : List String :=
  if props.contains attributesBlock || props.contains relationshipsBlock then
    ["id", "type", "meta"].filter props.contains ++ fieldNames root props attributesBlock ++
      fieldNames root props relationshipsBlock
  else props.keys

theorem keys_attributeEntries (block : Block) : block.attributeEntries.keys = block.names := rfl

theorem keys_relationshipEntries (block : Block) :
    block.relationshipEntries.keys = block.names := by
  simp [Block.relationshipEntries, Block.names, Entries.keys, Function.comp_def]

theorem mem_select {entries : Entries Json} {names : List String} {name : String} {value : Json} :
    (name, value) ∈ select entries names ↔ name ∈ names ∧ entries.get? name = some value := by
  rw [select, List.mem_filterMap]
  constructor
  · rintro ⟨wanted, isWanted, made⟩
    rcases Option.map_eq_some_iff.1 made with ⟨value', found, same⟩
    cases same
    exact ⟨isWanted, found⟩
  · rintro ⟨isWanted, found⟩
    exact ⟨name, isWanted, Option.map_eq_some_iff.2 ⟨value, found, rfl⟩⟩

theorem mem_keys_select {entries : Entries Json} {names : List String} {name : String} :
    name ∈ (select entries names).keys ↔ name ∈ names ∧ entries.contains name = true := by
  rw [Entries.keys, List.mem_map, Entries.contains, Option.isSome_iff_exists]
  constructor
  · rintro ⟨⟨name, value⟩, mem, rfl⟩
    rcases mem_select.1 mem with ⟨isWanted, found⟩
    exact ⟨isWanted, value, found⟩
  · rintro ⟨isWanted, value, found⟩
    exact ⟨(name, value), mem_select.2 ⟨isWanted, found⟩, rfl⟩

theorem value_addProperties_cons {path : String} {flat rest : Entries Json} {name : String}
    {schema : Json} :
    (addProperties path flat ((name, schema) :: rest)).value =
      (addProperties path (flat.insert name schema) rest).value := by
  rw [addProperties]
  split <;> rfl

theorem mem_keys_addProperties {path : String} {flat added : Entries Json} {name : String} :
    name ∈ (addProperties path flat added).value.keys ↔ name ∈ flat.keys ∨ name ∈ added.keys := by
  induction added generalizing flat with
  | nil => simp [addProperties, Entries.keys]
  | cons entry rest ih =>
      rcases entry with ⟨first, schema⟩
      rw [value_addProperties_cons, ih, Entries.mem_keys_insert]
      simp only [Entries.keys, List.map_cons, List.mem_cons]
      grind

/-! ## What a flat record is made from -/

variable {root : Json} {members props out : Entries Json} {path : String}

/-- A schema that is no reference stands for itself. -/
theorem follow?_of_reference?_eq_none {schema : Json} (direct : schema.reference? = none) :
    follow? root referenceSteps schema = some schema := by
  rw [referenceSteps, follow?, direct]

theorem names_of_block {name : String} {found : Block}
    (h : block root props path name = .ok found) :
    found.names = fieldNames root props name := by
  cases present : props.get? name with
  | none =>
      rw [block, present] at h
      cases h
      rw [fieldNames, present]
      rfl
  | some schema =>
      rw [block, present] at h
      dsimp only at h
      rw [fieldNames, present, Option.bind_some]
      cases followed : follow? root referenceSteps schema with
      | none =>
          rw [followed] at h
          cases h
      | some value =>
          rw [followed] at h
          cases h
          rfl

theorem isOpen_ofValue (schema : Json) :
    (Block.ofValue schema).isOpen = (schema.members?.bind properties).isNone := by
  cases schema <;> rfl

/-- A block that is no reference is what stands under its name. -/
theorem block_of_direct {name : String} {found : Block}
    (direct : ∀ schema, props.get? name = some schema → schema.reference? = none)
    (h : block root props path name = .ok found) :
    (props.get? name = none ∧ found = .absent) ∨
      ∃ schema, props.get? name = some schema ∧ found = .ofValue schema := by
  unfold block at h
  split at h
  · rename_i absent
    cases h
    exact .inl ⟨absent, rfl⟩
  · rename_i schema present
    rw [follow?_of_reference?_eq_none (direct schema present)] at h
    cases h
    exact .inr ⟨schema, present, rfl⟩

/-- The properties of a flat record before `meta`: what is kept of the record, then the fields. -/
def flatFields (path : String) (props : Entries Json) (attributes relationships : Block) :
    Entries Json :=
  let own := (addProperties path (select props ["id", "type"]) attributes.attributeEntries).value
  (addProperties path own relationships.relationshipEntries).value

/-- The properties of a flat record. -/
def flatProperties (path : String) (props : Entries Json) (attributes relationships : Block) :
    Entries Json :=
  match props.get? "meta" with
  | some schema => (flatFields path props attributes relationships).insert "meta" schema
  | none => flatFields path props attributes relationships

/-- A flat record is made from its two blocks. -/
theorem blocks_of_flattenBlocks (h : (flattenBlocks root members props path).result = .ok out) :
    ∃ attributes relationships,
      block root props path attributesBlock = .ok attributes ∧
      block root props path relationshipsBlock = .ok relationships ∧
      out = flatMembers members (flatProperties path props attributes relationships)
        (flatRequired (required members) (props.contains "meta") attributes relationships)
        attributes.isOpen := by
  rw [flattenBlocks] at h
  rcases Checked.ok_of_bind h with ⟨attributes, first, h⟩
  rcases Checked.ok_of_bind h with ⟨own, attributesAdded, h⟩
  rcases Checked.ok_of_bind h with ⟨relationships, second, h⟩
  rcases Checked.ok_of_bind h with ⟨fields, relationshipsAdded, h⟩
  rw [Checked.result_liftM] at attributesAdded relationshipsAdded
  cases attributesAdded
  cases relationshipsAdded
  cases h
  exact ⟨attributes, relationships, first, second, rfl⟩

variable {attributes relationships : Block} {name : String}

theorem mem_keys_flatFields :
    name ∈ (flatFields path props attributes relationships).keys ↔
      (name ∈ ["id", "type"] ∧ props.contains name = true) ∨
        name ∈ attributes.names ∨ name ∈ relationships.names := by
  rw [flatFields, mem_keys_addProperties, mem_keys_addProperties, mem_keys_select,
    keys_attributeEntries, keys_relationshipEntries, or_assoc]

/-- The names in a flat record: what is kept of the record, and the names in both blocks. -/
theorem mem_keys_flatProperties :
    name ∈ (flatProperties path props attributes relationships).keys ↔
      (name ∈ ["id", "type", "meta"] ∧ props.contains name = true) ∨
        name ∈ attributes.names ∨ name ∈ relationships.names := by
  have kept : name ∈ ["id", "type", "meta"] ↔ name ∈ ["id", "type"] ∨ name = "meta" :=
    (List.mem_append (s := ["id", "type"])).trans (or_congr_right List.mem_singleton)
  rw [flatProperties, kept]
  cases isMeta : props.get? "meta" with
  | none =>
      refine mem_keys_flatFields.trans
        (or_congr_left (and_congr_left fun present => (or_iff_left ?_).symm))
      rintro rfl
      rw [Entries.contains, isMeta] at present
      cases present
  | some schema =>
      refine (Entries.mem_keys_insert.trans (or_congr_right mem_keys_flatFields)).trans ?_
      have hasMeta : name = "meta" → props.contains name = true := by
        rintro rfl
        rw [Entries.contains, isMeta]
        rfl
      grind

theorem mem_addProperties {flat added : Entries Json} {entry : String × Json}
    (h : entry ∈ (addProperties path flat added).value) : entry ∈ added ∨ entry ∈ flat := by
  induction added generalizing flat with
  | nil => exact .inr h
  | cons first rest ih =>
      rcases first with ⟨name, schema⟩
      rw [value_addProperties_cons] at h
      rcases ih h with mem | mem
      · exact .inl (List.mem_cons_of_mem _ mem)
      · rcases Entries.mem_of_mem_insert mem with rfl | mem
        · exact .inl List.mem_cons_self
        · exact .inr mem

theorem mem_flatFields {schema : Json}
    (h : (name, schema) ∈ flatFields path props attributes relationships) :
    (name ∈ ["id", "type"] ∧ props.get? name = some schema) ∨
      (name, schema) ∈ attributes.attributeEntries ∨
        (name, schema) ∈ relationships.relationshipEntries := by
  rcases mem_addProperties h with mem | mem
  · exact .inr (.inr mem)
  · rcases mem_addProperties mem with mem | mem
    · exact .inr (.inl mem)
    · exact .inl (mem_select.1 mem)

/-- Each property of a flat record is kept of the record or comes from one of its blocks. -/
theorem mem_flatProperties {schema : Json}
    (h : (name, schema) ∈ flatProperties path props attributes relationships) :
    (name ∈ ["id", "type", "meta"] ∧ props.get? name = some schema) ∨
      (name, schema) ∈ attributes.attributeEntries ∨
        (name, schema) ∈ relationships.relationshipEntries := by
  have fields (mem : (name, schema) ∈ flatFields path props attributes relationships) :=
    (mem_flatFields mem).imp_left fun both =>
      (⟨List.mem_append_left ["meta"] both.1, both.2⟩ :
        name ∈ ["id", "type", "meta"] ∧ props.get? name = some schema)
  unfold flatProperties at h
  split at h
  · rename_i value isMeta
    rcases Entries.mem_of_mem_insert h with same | mem
    · cases same
      exact .inl ⟨by decide, isMeta⟩
    · exact fields mem
  · exact fields h

/-- A record that declares no properties is left alone. -/
theorem flattenRecord_of_properties_eq_none (found : properties members = none) :
    flattenRecord root members path = pure members := by
  rw [flattenRecord, found]

/-- A record with neither block is left alone. -/
theorem flattenRecord_of_no_block (found : properties members = some props)
    (none : (props.contains attributesBlock || props.contains relationshipsBlock) = false) :
    flattenRecord root members path = pure members := by
  rw [flattenRecord, found]
  dsimp only
  rw [none]
  rfl

/-- A record with a block is made into a flat one. -/
theorem flattenRecord_of_block (found : properties members = some props)
    (hasBlock : (props.contains attributesBlock || props.contains relationshipsBlock) = true) :
    flattenRecord root members path = flattenBlocks root members props path := by
  rw [flattenRecord, found]
  exact if_pos hasBlock

/-- A flat record has the properties that are left of the record and those of its blocks. -/
theorem properties_of_flattenRecord (h : (flattenRecord root members path).result = .ok out)
    (found : properties members = some props) :
    ∃ flat, properties out = some flat ∧
      ∀ name, name ∈ flat.keys ↔ name ∈ flatNames root props := by
  cases record : props.contains attributesBlock || props.contains relationshipsBlock with
  | false =>
      rw [flattenRecord_of_no_block found record] at h
      cases h
      refine ⟨props, found, ?_⟩
      intro name
      rw [flatNames, record]
      rfl
  | true =>
      rw [flattenRecord_of_block found record] at h
      rcases blocks_of_flattenBlocks h with ⟨attributes, relationships, first, second, rfl⟩
      refine ⟨_, properties_flatMembers found, ?_⟩
      intro name
      rw [mem_keys_flatProperties, flatNames, if_pos record, names_of_block first,
        names_of_block second, List.mem_append, List.mem_append, List.mem_filter, or_assoc]

/-- The members that are not about properties are kept. -/
theorem get?_of_flattenRecord (h : (flattenRecord root members path).result = .ok out)
    {key : String} (other : key ∉ ["properties", "required", "additionalProperties"]) :
    out.get? key = members.get? key := by
  simp only [List.mem_cons, List.not_mem_nil, or_false, not_or] at other
  rcases other with ⟨noProperties, noRequired, notOpen⟩
  rw [flattenRecord] at h
  split at h
  · cases h
    rfl
  · split at h
    · rcases blocks_of_flattenBlocks h with ⟨-, -, -, -, rfl⟩
      rw [get?_flatMembers, if_neg notOpen, if_neg noRequired]
      simp [noProperties]
    · cases h
      rfl

/-- A flat record is an object schema as the record was. -/
theorem node_of_flattenRecord (h : (flattenRecord root members path).result = .ok out)
    (shape : (Json.object members).node = .object members) :
    (Json.object out).node = .object out := by
  cases found : properties members with
  | none =>
      rw [flattenRecord_of_properties_eq_none found] at h
      cases h
      exact shape
  | some props =>
      rcases properties_of_flattenRecord h found with ⟨flat, declared, -⟩
      rcases node_eq_object_iff.1 shape with ⟨noReference, noUnion, -⟩
      -- `$ref` and `anyOf` are as they were, and the properties are declared.
      rw [node_eq_object_iff, referenceIn?, get?_of_flattenRecord h (by decide),
        get?_of_flattenRecord h (by decide)]
      refine ⟨noReference, noUnion, ?_⟩
      rw [Entries.contains, get?_of_properties declared]
      rfl

end HyperSchema.Schema
