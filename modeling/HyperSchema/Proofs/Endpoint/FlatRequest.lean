import HyperSchema.Proofs.Endpoint.RequestShape
import HyperSchema.Proofs.Schema.Flattening
import HyperSchema.Proofs.Schema.Inlining

/-!
# Flat requests — the shape of a request against its flat record

The shape of a request reads a block through unions and arrays, a flat record reads the properties
that the block itself declares.  This file defines:

* `Schema.PlainBlock`, a block that is read the same way by both, and `Schema.MixedBlock`, a union
  with properties of its own;
* `RequestShape.mem_fieldNames_iff`, the names that both find in a plain block;
* `RequestShape.flattenRecord_of_ofBody`: where the blocks are plain, a flat record has the fields
  in the shape, and it is open if the shape leaves its attributes open.
-/

namespace HyperSchema

namespace Schema

variable {root schema : Json} {members props : Entries Json} {path name : String}

/-! ## Blocks -/

/-- The block under a name is an object schema, where there is one. -/
def PlainBlock (props : Entries Json) (name : String) : Prop :=
  ∀ schema, props.get? name = some schema → ∃ members, schema.node = .object members

/-- The block under a name is a union that declares properties beside its branches. -/
def MixedBlock (props : Entries Json) (name : String) : Prop :=
  ∃ schema members branches found, props.get? name = some schema ∧
    schema.node = .union members branches ∧ properties members = some found

theorem reference?_of_node_object (h : schema.node = .object members) :
    schema.reference? = none := by
  cases eq_object_of_node_object h
  exact (node_eq_object_iff.1 h).1

theorem PlainBlock.direct (plain : PlainBlock props name) :
    ∀ schema, props.get? name = some schema → schema.reference? = none := by
  intro schema present
  rcases plain schema present with ⟨members, shape⟩
  exact reference?_of_node_object shape

theorem fieldNames_of_reference?_eq_none (present : props.get? name = some schema)
    (direct : schema.reference? = none) :
    fieldNames root props name = (Block.ofValue schema).names := by
  rw [fieldNames, present, Option.bind_some, follow?_of_reference?_eq_none direct]

theorem reference?_of_node_reference {target : String} (h : schema.node = .reference target) :
    schema.reference? = some target := by
  cases shaped_of_node_eq h with
  | reference isReference =>
      rw [Json.reference?, Json.members?, Option.bind_some, referenceIn?, isReference]
      rfl

/-- An array schema declares no properties. -/
theorem properties_of_node_array {items : Items} (h : schema.node = .array members items) :
    properties members = none := by
  cases shaped_of_node_eq h with
  | array noObject =>
      -- Properties are looked for before items.
      have absent : members.get? "properties" = none :=
        Option.not_isSome_iff_eq_none.1 (Bool.not_eq_true _ ▸ (Bool.or_eq_false_iff.1 noObject).1)
      rw [properties, absent]
      rfl

end Schema

namespace RequestShape

open Schema

variable {root schema : Json} {members props : Entries Json} {path name : String}

theorem blockFields_of_node_object (shape : schema.node = .object members) :
    blockFields schema path = .ok (match properties members with
      | some found => .known found.keys.eraseDups
      | none => .any) := by
  rw [blockFields, shape]
  dsimp only
  rw [gatherObjects_eq, shape]
  dsimp only
  cases found : properties members with
  | some found' =>
      rw [propertyNames, found]
      rfl
  | none =>
      rw [propertyNames, found]
      rfl

/-- What is known about a plain block. -/
theorem fieldsUnder_of_plainBlock {fields : Fields} (found : properties members = some props)
    (plain : PlainBlock props name) (h : fieldsUnder name members path = .ok fields) :
    (props.get? name = none ∧ fields = .known []) ∨
      ∃ schema inner, props.get? name = some schema ∧ schema.node = .object inner ∧
        fields = match properties inner with
          | some declared => .known declared.keys.eraseDups
          | none => .any := by
  rw [fieldsUnder, found, Option.bind_some] at h
  cases present : props.get? name with
  | none =>
      rw [present] at h
      cases h
      exact .inl ⟨rfl, rfl⟩
  | some schema =>
      rw [present] at h
      rcases plain schema present with ⟨inner, shape⟩
      dsimp only at h
      rw [blockFields_of_node_object shape] at h
      cases h
      exact .inr ⟨schema, inner, rfl, shape, rfl⟩

/-- The shape of a request and its flat record find the same names in a plain block. -/
theorem mem_fieldNames_iff {names : List String} (found : properties members = some props)
    (plain : PlainBlock props name) (h : fieldsUnder name members path = .ok (.known names))
    (key : String) : key ∈ fieldNames root props name ↔ key ∈ names := by
  rcases fieldsUnder_of_plainBlock found plain h with
    ⟨absent, known⟩ | ⟨schema, inner, present, shape, known⟩
  · cases known
    rw [fieldNames, absent]
    rfl
  · rw [fieldNames_of_reference?_eq_none present (reference?_of_node_object shape),
      eq_object_of_node_object shape]
    split at known
    · rename_i declared isDeclared
      cases known
      rw [List.mem_eraseDups]
      simp [Block.names, Block.ofValue, Block.properties?, isDeclared, Json.members?]
    · cases known

/-- A plain block whose fields are known is not open. -/
theorem isOpen_eq_false {names : List String} {found : Block}
    (declared : properties members = some props) (plain : PlainBlock props name)
    (h : fieldsUnder name members path = .ok (.known names)) {path' : String}
    (read : block root props path' name = .ok found) : found.isOpen = false := by
  rcases block_of_direct plain.direct read with ⟨-, rfl⟩ | ⟨schema, present, rfl⟩
  · rfl
  · rcases fieldsUnder_of_plainBlock declared plain h with
      ⟨absent, -⟩ | ⟨schema', inner, present', shape, known⟩
    · cases present.symm.trans absent
    · cases present.symm.trans present'
      rw [isOpen_ofValue, eq_object_of_node_object shape]
      split at known
      · rename_i isDeclared
        rw [Json.members?, Option.bind_some, isDeclared]
        rfl
      · cases known

/-- A block that leaves its fields open is open, unless it is a union with properties of its own. -/
theorem isOpen_eq_true {found : Block} (declared : properties members = some props)
    (direct : ∀ schema, props.get? name = some schema → schema.reference? = none)
    (plain : ¬ MixedBlock props name) (h : fieldsUnder name members path = .ok .any)
    {path' : String} (read : block root props path' name = .ok found) : found.isOpen = true := by
  rw [fieldsUnder, declared, Option.bind_some] at h
  rcases block_of_direct direct read with ⟨absent, rfl⟩ | ⟨schema, present, rfl⟩
  · rw [absent] at h
    cases h
  · rw [present] at h
    dsimp only at h
    rw [isOpen_ofValue, Option.isNone_iff_eq_none]
    -- The fields are open where no branch pins them, the record is where it has no properties.
    cases shape : schema.node with
    | reference target =>
        cases (direct schema present).symm.trans (reference?_of_node_reference shape)
    | union inner branches =>
        cases (eq_object_of_node_union shape).1
        cases own : properties inner with
        | none => exact own
        | some found => exact (plain ⟨_, inner, branches, found, present, shape, own⟩).elim
    | object inner =>
        rw [blockFields_of_node_object shape] at h
        cases eq_object_of_node_object shape
        cases own : properties inner with
        | none => exact own
        | some found =>
            rw [own] at h
            cases h
    | array inner items =>
        have own := properties_of_node_array shape
        cases (eq_object_of_node_array shape).1
        exact own
    | leaf =>
        rw [blockFields, shape] at h
        dsimp only at h
        rw [gatherObjects_eq, shape] at h
        cases h

/-! ## Both readings -/

/-- For a request whose data is a record without references, where both readings succeed, the names
in a flat record are those in the shape and what is left of the record, if the blocks are plain; it
is closed where the shape knows the attributes, and open where the shape leaves them open. -/
theorem flattenRecord_of_ofBody {body data : Json} {out : Entries Json} {bodyPath : String}
    {shape : RequestShape} (envelope : data? body = some data)
    (isRecord : data.node = .object members) (noReference : data.references = [])
    (found : properties members = some props)
    (hasBlock : (props.contains attributesBlock || props.contains relationshipsBlock) = true)
    (read : ofBody body bodyPath = .ok (some shape))
    (flattened : (flattenRecord root members path).result = .ok out) :
    ∃ flat isOpen, properties out = some flat ∧
      out.get? "additionalProperties" = some (.bool isOpen) ∧
      (∀ attributes relationships, shape.attributes = .known attributes →
        shape.relationships = .known relationships → PlainBlock props attributesBlock →
        PlainBlock props relationshipsBlock → ∀ name, name ∈ flat.keys ↔
          name ∈ attributes ∨ name ∈ relationships ∨
            (name ∈ ["id", "type", "meta"] ∧ name ∈ props.keys)) ∧
      (∀ attributes, shape.attributes = .known attributes → PlainBlock props attributesBlock →
        isOpen = false) ∧
      (shape.attributes = .any → ¬ MixedBlock props attributesBlock → isOpen = true) := by
  rcases shape_of_ofBody read envelope with ⟨shape', same, made⟩
  cases same
  rcases fields_of_ofData made isRecord with ⟨readAttributes, readRelationships⟩
  rw [flattenRecord_of_block found hasBlock] at flattened
  rcases blocks_of_flattenBlocks flattened with ⟨first, second, isFirst, isSecond, rfl⟩
  -- Without references, both sides read the attributes from the same schema.
  have direct : ∀ schema, props.get? attributesBlock = some schema → schema.reference? = none := by
    intro schema present
    rw [eq_object_of_node_object isRecord] at noReference
    exact reference?_of_references_eq_nil noReference
      (.member (Entries.mem_of_get? (get?_of_properties found))
        (.member (Entries.mem_of_get? present) .whole))
  refine ⟨_, first.isOpen, properties_flatMembers found, by rw [get?_flatMembers, if_pos rfl],
    ?_, ?_, ?_⟩
  · intro declared related isDeclared isRelated plain plain' name
    rw [isDeclared] at readAttributes
    rw [isRelated] at readRelationships
    rw [mem_keys_flatProperties, names_of_block isFirst, names_of_block isSecond,
      mem_fieldNames_iff found plain readAttributes,
      mem_fieldNames_iff found plain' readRelationships, Entries.contains_iff]
    grind
  · intro declared isDeclared plain
    rw [isDeclared] at readAttributes
    exact isOpen_eq_false found plain readAttributes isFirst
  · intro isAny plain
    rw [isAny] at readAttributes
    exact isOpen_eq_true found direct plain readAttributes isFirst

/-! ## Requests that are read -/

/-- A record with the given properties. -/
def recordWith (props : Entries Json) : Entries Json :=
  [("properties", .object props)]

/-- The body of a request with such a record as its data. -/
def bodyWith (props : Entries Json) : Json :=
  .object (recordWith [("data", .object (recordWith props))])

/-- An article with two plain blocks. -/
def articleProps : Entries Json :=
  [("id", .object []), ("attributes", .object (recordWith [("title", .object [])])),
    ("relationships",
      .object (recordWith [("author", .object (recordWith [("data", .object [])]))]))]

/-- The flat record of an article. -/
def flatArticle : Entries Json :=
  [("properties", .object [("id", .object []), ("title", .object []), ("author", .object [])]),
    ("additionalProperties", .bool false)]

/-- A note with any attributes. -/
def noteProps : Entries Json :=
  [("attributes", .object [("type", .string "object")])]

/-- The flat record of a note. -/
def flatNote : Entries Json :=
  [("properties", .object []), ("additionalProperties", .bool true)]

theorem plainBlock_attributes_article : PlainBlock articleProps attributesBlock := by
  intro schema present
  cases present
  exact ⟨_, rfl⟩

theorem plainBlock_relationships_article : PlainBlock articleProps relationshipsBlock := by
  intro schema present
  cases present
  exact ⟨_, rfl⟩

theorem not_mixedBlock_note : ¬ MixedBlock noteProps attributesBlock := by
  rintro ⟨schema, members, branches, found, present, shape, -⟩
  cases present
  cases shape

/-- Both readings of an article give the names `title` and `author`, both of a note leave its
attributes open. -/
theorem flattenRecord_of_article :
    (∃ flat, properties flatArticle = some flat ∧
      flatArticle.get? "additionalProperties" = some (.bool false) ∧
      ∀ name, name ∈ flat.keys ↔ name ∈ ["title"] ∨ name ∈ ["author"] ∨
        (name ∈ ["id", "type", "meta"] ∧ name ∈ articleProps.keys)) ∧
      flatNote.get? "additionalProperties" = some (.bool true) := by
  constructor
  · have read : ofBody (bodyWith articleProps) "" =
        .ok (some ⟨.any, .known ["title"], .known ["author"]⟩) := by
      decide +kernel
    have flattened : (flattenRecord .null (recordWith articleProps) "").result = .ok flatArticle :=
      rfl
    rcases flattenRecord_of_ofBody (show data? (bodyWith articleProps) = _ from rfl) rfl (by decide)
      rfl rfl read flattened with ⟨flat, isOpen, declared, opened, names, closed, -⟩
    refine ⟨flat, declared, ?_, ?_⟩
    · rw [opened, closed ["title"] rfl plainBlock_attributes_article]
    · exact names ["title"] ["author"] rfl rfl plainBlock_attributes_article
        plainBlock_relationships_article
  · have read : ofBody (bodyWith noteProps) "" = .ok (some ⟨.any, .any, .known []⟩) := by
      decide +kernel
    have flattened : (flattenRecord .null (recordWith noteProps) "").result = .ok flatNote := rfl
    rcases flattenRecord_of_ofBody (show data? (bodyWith noteProps) = _ from rfl) rfl (by decide)
      rfl rfl read flattened with ⟨flat, isOpen, -, opened, -, -, isAny⟩
    rw [opened, isAny rfl not_mixedBlock_note]

/-! ## Requests that are read in two ways -/

/-- A record whose attributes are an array of objects. -/
def listProps : Entries Json :=
  [("attributes",
    .object [("type", .string "array"), ("items", .object (recordWith [("a", .object [])]))])]

/-- A record whose attributes are a union that declares a property beside its branches. -/
def mixedProps : Entries Json :=
  [("attributes", .object [("anyOf", .array [.object [("type", .string "object")]]),
    ("properties", .object [("a", .object [])])])]

/-- The shape of a request finds the fields of the items of an array, while the flat record has none
of them and is open; a union with a property of its own leaves the attributes of the shape open,
while the flat record is closed. -/
theorem flattenRecord_of_listProps :
    (∃ out : Entries Json, (bodyWith listProps).references = [] ∧
      ofBody (bodyWith listProps) "" = .ok (some ⟨.any, .known ["a"], .known []⟩) ∧
      (flattenRecord .null (recordWith listProps) "").result = .ok out ∧
      (¬ ∃ flat, properties out = some flat ∧ ∀ name, name ∈ flat.keys ↔
        name ∈ ["a"] ∨ name ∈ [] ∨ (name ∈ ["id", "type", "meta"] ∧ name ∈ listProps.keys)) ∧
      out.get? "additionalProperties" ≠ some (.bool false)) ∧
    ∃ out : Entries Json, (bodyWith mixedProps).references = [] ∧
      ofBody (bodyWith mixedProps) "" = .ok (some ⟨.any, .any, .known []⟩) ∧
      (flattenRecord .null (recordWith mixedProps) "").result = .ok out ∧
      out.get? "additionalProperties" ≠ some (.bool true) := by
  constructor
  · refine ⟨[("properties", .object []), ("additionalProperties", .bool true)], by decide,
      by decide +kernel, rfl, ?_, by simp⟩
    rintro ⟨flat, declared, names⟩
    cases declared
    cases (names "a").2 (.inl (List.mem_singleton.2 rfl))
  · exact ⟨[("properties", .object [("a", .object [])]), ("additionalProperties", .bool false)],
      by decide, by decide +kernel, rfl, by simp⟩

end RequestShape

end HyperSchema
