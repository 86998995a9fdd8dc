import HyperSchema.Proofs.Json.Equality
import HyperSchema.Proofs.Schema.Inlining
import HyperSchema.Proofs.Schema.Levels

/-!
# Idempotence — when flattening again changes nothing

A flat document is left alone.  A document that is left alone is flat, unless one of its blocks is a
reference: what a block adds to a record is smaller than the block, so that no field can take the
place of the block that it came from.  This file defines:

* `Json.DirectBlocks`, the documents in which no block is a reference;
* `Schema.sizeOf_relationshipData_le`, the wrapper of a relationship only adds to its size;
* `Schema.exists_block_of_get?_flatProperties`, a field is smaller than its block;
* `Json.flat_of_fixed`: a document that is left alone is flat;
* `Json.flattened_again`: flattening again changes nothing if the document has one level, and only
  then.
-/

namespace HyperSchema

open Schema

/-- A document in which no block is a reference. -/
def Json.DirectBlocks (document : Json) : Prop :=
  ∀ props, Part (.object props) document → ∀ block ∈ [attributesBlock, relationshipsBlock],
    ∀ schema, Entries.get? props block = some schema → schema.reference? = none

theorem Json.DirectBlocks.part {value part : Json} (h : value.DirectBlocks)
    (inside : Part part value) :
    part.DirectBlocks :=
  fun props stands => h props (stands.trans inside)

theorem Json.DirectBlocks.member {members : Entries Json} {name : String} {value : Json}
    (h : (Json.object members).DirectBlocks) (found : members.get? name = some value) :
    value.DirectBlocks :=
  h.part (.member (Entries.mem_of_get? found) .whole)

namespace Schema

variable {root schema : Json} {members props out : Entries Json} {path name : String}

/-! ## Sizes -/

/-- A relationship is not smaller than its data, with the description that goes with it. -/
theorem sizeOf_relationshipData_le (schema : Json) :
    sizeOf (relationshipData schema) ≤ sizeOf schema := by
  rw [relationshipData]
  split
  · rename_i members shape
    cases eq_object_of_node_object shape
    split
    · rename_i data found
      rcases Option.bind_eq_some_iff.1 found with ⟨props, declared, present⟩
      have dataSize := Entries.sizeOf_get? present
      have declared := get?_of_properties declared
      have propsSize := Entries.sizeOf_get? declared
      simp only [Json.object.sizeOf_spec] at propsSize ⊢
      unfold describe
      split
      · rename_i text members' described
        split
        · omega
        · -- The description stands beside the properties that the data stands in.
          have both := Entries.sizeOf_get?_add_lt declared described (by decide)
          have inserted := Entries.sizeOf_insert_le members' "description" text
          simp only [Json.object.sizeOf_spec] at both dataSize ⊢
          omega
      · omega
    · exact Nat.le_refl _
  · exact Nat.le_refl _

theorem sizeOf_lt_of_mem_properties {value : Json}
    (h : (name, schema) ∈ (Block.ofValue value).properties?.getD []) :
    sizeOf schema < sizeOf value := by
  cases value with
  | object members =>
      cases found : properties members with
      | none =>
          rw [show (Block.ofValue (.object members)).properties? = none from found] at h
          cases h
      | some props =>
          rw [show (Block.ofValue (.object members)).properties? = some props from found] at h
          have inner := Entries.sizeOf_lt_of_mem h
          have outer := Entries.sizeOf_get? (get?_of_properties found)
          simp only [Json.object.sizeOf_spec] at outer ⊢
          simp only [Option.getD_some] at inner
          omega
  | _ => cases h

/-- What a block adds to a record is smaller than the block. -/
theorem sizeOf_lt_of_mem_entries {value : Json}
    (h : (name, schema) ∈ (Block.ofValue value).attributeEntries ∨
      (name, schema) ∈ (Block.ofValue value).relationshipEntries) :
    sizeOf schema < sizeOf value := by
  rcases h with mem | mem
  · exact sizeOf_lt_of_mem_properties mem
  · rcases List.mem_map.1 mem with ⟨⟨name', whole⟩, inside, same⟩
    cases same
    exact Nat.lt_of_le_of_lt (sizeOf_relationshipData_le whole) (sizeOf_lt_of_mem_properties inside)

/-- A field of a flat record is smaller than the block that it comes from. -/
theorem exists_block_of_get?_flatProperties {attributes relationships : Block}
    (direct : ∀ block ∈ [attributesBlock, relationshipsBlock], ∀ schema,
      props.get? block = some schema → schema.reference? = none)
    (isFirst : block root props path attributesBlock = .ok attributes)
    (isSecond : block root props path relationshipsBlock = .ok relationships)
    (h : (flatProperties path props attributes relationships).get? name = some schema) :
    (name ∈ ["id", "type", "meta"] ∧ props.get? name = some schema) ∨
      ∃ block ∈ [attributesBlock, relationshipsBlock], ∃ source, props.get? block = some source ∧
        sizeOf schema < sizeOf source := by
  rcases mem_flatProperties (Entries.mem_of_get? h) with kept | mem | mem
  · exact .inl kept
  · rcases block_of_direct (direct _ List.mem_cons_self) isFirst with
      ⟨-, rfl⟩ | ⟨source, present, rfl⟩
    · cases mem
    · exact .inr ⟨_, List.mem_cons_self, source, present, sizeOf_lt_of_mem_entries (.inl mem)⟩
  · have isBlock : relationshipsBlock ∈ [attributesBlock, relationshipsBlock] :=
      List.mem_cons_of_mem _ List.mem_cons_self
    rcases block_of_direct (direct _ isBlock) isSecond with ⟨-, rfl⟩ | ⟨source, present, rfl⟩
    · cases mem
    · exact .inr ⟨_, isBlock, source, present, sizeOf_lt_of_mem_entries (.inr mem)⟩

/-! ## Records that are left alone -/

/-- A record whose properties stay as they are has no block. -/
theorem no_block_of_fixed (h : (flattenRecord root members path).result = .ok out)
    (found : properties members = some props) (same : properties out = some props)
    (direct : ∀ block ∈ [attributesBlock, relationshipsBlock], ∀ schema,
      props.get? block = some schema → schema.reference? = none) :
    (props.contains attributesBlock || props.contains relationshipsBlock) = false := by
  rw [← Bool.not_eq_true]
  intro hasBlock
  rw [flattenRecord_of_block found hasBlock] at h
  rcases blocks_of_flattenBlocks h with ⟨attributes, relationships, isFirst, isSecond, rfl⟩
  rw [properties_flatMembers found, Option.some.injEq] at same
  -- Every block has come out of a larger one, so that there are blocks of any size.
  have larger : ∀ size, ∃ block ∈ [attributesBlock, relationshipsBlock], ∃ schema,
      props.get? block = some schema ∧ size ≤ sizeOf schema := by
    intro size
    induction size with
    | zero =>
        rcases Bool.or_eq_true_iff.1 hasBlock with present | present
        · rcases Option.isSome_iff_exists.1 present with ⟨schema, present⟩
          exact ⟨_, List.mem_cons_self, schema, present, Nat.zero_le _⟩
        · rcases Option.isSome_iff_exists.1 present with ⟨schema, present⟩
          exact ⟨_, List.mem_cons_of_mem _ List.mem_cons_self, schema, present, Nat.zero_le _⟩
    | succ size ih =>
        rcases ih with ⟨block, isBlock, schema, present, bound⟩
        rw [← same] at present
        rcases exists_block_of_get?_flatProperties direct isFirst isSecond present with
          ⟨kept, -⟩ | ⟨source, isSource, value, present', smaller⟩
        · exact (block_not_kept block isBlock kept).elim
        · exact ⟨source, isSource, value, present', by omega⟩
  rcases larger (sizeOf props) with ⟨block, -, schema, present, bound⟩
  have := Entries.sizeOf_get? present
  omega

/-- The properties of a flat record are smaller than those of the record. -/
theorem sizeOf_lt_of_flattenRecord {flat : Entries Json} {value : Json}
    (h : (flattenRecord root members path).result = .ok out)
    (found : properties members = some props) (declared : properties out = some flat)
    (direct : ∀ block ∈ [attributesBlock, relationshipsBlock], ∀ schema,
      props.get? block = some schema → schema.reference? = none)
    (present : flat.get? name = some value) : sizeOf value < sizeOf props := by
  cases hasBlock : props.contains attributesBlock || props.contains relationshipsBlock with
  | false =>
      rw [flattenRecord_of_no_block found hasBlock] at h
      cases h
      cases found.symm.trans declared
      exact Entries.sizeOf_get? present
  | true =>
      rw [flattenRecord_of_block found hasBlock] at h
      rcases blocks_of_flattenBlocks h with ⟨attributes, relationships, isFirst, isSecond, rfl⟩
      cases (properties_flatMembers found).symm.trans declared
      rcases exists_block_of_get?_flatProperties direct isFirst isSecond present with
        ⟨-, kept⟩ | ⟨block, -, source, present', smaller⟩
      · exact Entries.sizeOf_get? kept
      · exact Nat.lt_trans smaller (Entries.sizeOf_get? present')

/-! ## Links that are left alone -/

/-- The blocks of a record in a document are no references. -/
theorem direct_of_directBlocks (h : (Json.object members).DirectBlocks)
    (found : properties members = some props) :
    ∀ block ∈ [attributesBlock, relationshipsBlock], ∀ schema, props.get? block = some schema →
      schema.reference? = none :=
  h props (.member (Entries.mem_of_get? (get?_of_properties found)) .whole)

/-- The data of an envelope stands under `data`. -/
theorem get?_of_envelopeData? {data : Json} (h : envelopeData? props = some data) :
    props.get? "data" = some data := by
  rw [envelopeData?] at h
  split at h
  · exact h
  · cases h

/-- The data of an envelope, made flat, is not the envelope. -/
theorem mapObjects_ne_envelope {data : Json} (shape : (Json.object members).node = .object members)
    (found : properties members = some props) (present : props.get? "data" = some data)
    (direct : data.DirectBlocks) :
    (mapObjects (flattenRecord root) data path).result ≠ .ok (.object members) := by
  intro h
  by_cases isRecord : ∃ inner, data.node = .object inner
  · rcases isRecord with ⟨inner, shape'⟩
    cases eq_object_of_node_object shape'
    rw [mapObjects_object shape'] at h
    rcases Checked.ok_of_bind h with ⟨flat, flattened, h⟩
    cases h
    cases found' : properties inner with
    | none =>
        -- Such data is not changed, and an envelope has properties.
        rw [flattenRecord_of_properties_eq_none found'] at flattened
        cases flattened
        cases found.symm.trans found'
    | some props' =>
        -- As a field of its own flat form, the data would be smaller than its properties.
        have smaller := sizeOf_lt_of_flattenRecord flattened found' found
          (direct_of_directBlocks direct found') present
        have larger := Entries.sizeOf_get? (get?_of_properties found')
        simp only [Json.object.sizeOf_spec] at smaller larger
        omega
  · rw [not_exists] at isRecord
    exact not_object_of_mapObjects h isRecord members shape

/-- A schema of a link that stays as it is has no envelope. -/
theorem dataOfEnvelope?_of_fixed (h : (flattenLinkSchema root schema path).result = .ok schema)
    (direct : schema.DirectBlocks) : dataOfEnvelope? schema = none := by
  cases envelope : dataOfEnvelope? schema with
  | none => rfl
  | some data =>
      rw [flattenLinkSchema, envelope] at h
      dsimp only at h
      by_cases isObject : ∃ members, schema.node = .object members
      · rcases isObject with ⟨members, shape⟩
        cases eq_object_of_node_object shape
        rw [dataOfEnvelope?_of_node_object shape] at envelope
        rcases Option.bind_eq_some_iff.1 envelope with ⟨props, found, isEnvelope⟩
        have present := get?_of_envelopeData? isEnvelope
        have inside := (direct.member (get?_of_properties found)).member present
        exact (mapObjects_ne_envelope shape found present inside h).elim
      · rw [not_exists] at isObject
        cases envelope.symm.trans (dataOfEnvelope?_of_not_object isObject)

/-- A link that stays as it is is flat. -/
theorem flatLink_of_fixed {link : Json} (h : (flattenLink root link path).result = .ok link)
    (direct : link.DirectBlocks) : FlatLink link := by
  intro key isKey schema present
  cases link with
  | object members =>
      rw [flattenLink] at h
      rcases Checked.ok_of_bind h with ⟨flat, flattened, h⟩
      cases h
      rcases (get?_of_flattenLinkSchemas flattened key).2 schema isKey present with
        ⟨made, flattened', present'⟩
      cases present.symm.trans present'
      exact dataOfEnvelope?_of_fixed flattened' (direct.member present)
  | _ => cases present

/-- A definition that stays as it is is flat. -/
theorem flatDefinition_of_fixed {definition : Json}
    (h : (flattenDefinition root definition path).result = .ok definition)
    (direct : definition.DirectBlocks) : FlatDefinition definition := by
  cases definition with
  | object members =>
      rcases members_of_flattenDefinition h with ⟨flat, out, flattened, same, kept, links⟩
      cases same
      refine ⟨?_, ?_⟩
      · intro members' props shape found
        cases eq_object_of_node_object shape
        rw [flattenMembers, shape] at flattened
        have sameProps : properties flat = some props := by
          rw [properties, ← kept "properties" (by decide)]
          exact found
        exact no_block_of_fixed flattened found sameProps (direct_of_directBlocks direct found)
      · intro links' present link mem
        rcases links with ⟨links, flatLinks, found, found', each⟩ | ⟨noLinks, -⟩
        · cases found.symm.trans found'
          cases found.symm.trans present
          rcases List.forall₂_same.1 (forall₂_of_flattenLinks each) link mem with ⟨path', fixed⟩
          exact flatLink_of_fixed fixed ((direct.member found).part (.item mem .whole))
        · exact (noLinks links' present).elim
  | _ => exact flatDefinition_of_not_object (by simp)

end Schema

/-! ## Documents that are left alone -/

namespace Json

variable {document out : Json}

/-- A document that is left alone is flat. -/
theorem flat_of_fixed (h : document.flattened.result = .ok document)
    (direct : document.DirectBlocks) : document.Flat := by
  rcases definitions_of_flattened h with ⟨found, flat, read, flattened, read'⟩
  cases read.symm.trans read'
  intro found' again entry mem
  cases read.symm.trans again
  rcases members_of_definitions read with ⟨members, rfl, present⟩
  rcases List.forall₂_same.1 (forall₂_of_flattenDefinitions flattened) entry mem with ⟨-, fixed⟩
  exact flatDefinition_of_fixed fixed ((direct.member present).part (.member mem .whole))

/-- Flattening again changes nothing, and gives no warning, if the document has one level; and only
then, unless a block is left that is a reference. -/
theorem flattened_again (h : document.flattened.result = .ok out) :
    (document.OneLevel → out.flattened.result = .ok out ∧ out.flattened.warnings = []) ∧
      (out.DirectBlocks → out.flattened.result = .ok out → document.OneLevel) := by
  constructor
  · intro oneLevel
    rcases definitions_of_flattened h with ⟨-, flat, -, -, read⟩
    rw [flattened_of_flat read ((flat_iff_oneLevel h).2 oneLevel)]
    exact ⟨rfl, rfl⟩
  · intro direct fixed
    exact (flat_iff_oneLevel h).1 (flat_of_fixed fixed direct)

/-- Where no reference occurs, no block is one. -/
theorem directBlocks_of_references_eq_nil (none : document.references = []) :
    document.DirectBlocks := by
  intro props stands block _ schema present
  exact reference?_of_references_eq_nil none
    ((Part.member (Entries.mem_of_get? present) .whole).trans stands)

/-! ## A document with one level and one with two -/

/-- The document with one definition. -/
def documentOf (definition : List (String × Json)) : Json :=
  .object [("definitions", .object [("article", .object definition)])]

/-- A record with some attributes. -/
def recordOf (attributes : Json) : List (String × Json) :=
  [("properties", .object [("attributes", .object [("properties", attributes)])])]

/-- The properties of an article. -/
def titleOnly : Json :=
  .object [("title", .object [])]

/-- An article, with a link that takes one in an envelope. -/
def linkedArticle : List (String × Json) :=
  recordOf titleOnly ++ [("links", .array [.object [("schema",
    .object [("properties", .object [("data", .object (recordOf titleOnly))])])]])]

/-- The flat form of this definition. -/
def flatLinkedArticle : List (String × Json) :=
  [("properties", titleOnly),
    ("links", .array [.object [("schema",
      .object [("properties", titleOnly), ("additionalProperties", .bool false)])]]),
    ("additionalProperties", .bool false)]

/-- A record with an attribute that is itself called `attributes`. -/
def layeredArticle : List (String × Json) :=
  recordOf (.object [("attributes", .object [("properties", titleOnly)])])

/-- The flat form of this definition still has a block. -/
def flatLayeredArticle : List (String × Json) :=
  recordOf titleOnly ++ [("additionalProperties", .bool false)]

theorem oneLevel_linkedArticle : (documentOf linkedArticle).OneLevel := by
  intro found read entry mem
  cases read
  cases List.mem_singleton.1 mem
  refine ⟨?_, ?_⟩
  · intro members props shape found
    cases shape
    cases found
    decide
  · intro links present link mem key isKey schema present'
    cases present
    cases List.mem_singleton.1 mem
    simp only [envelopeKeys, List.mem_cons, List.not_mem_nil, or_false] at isKey
    rcases isKey with rfl | rfl | rfl
    · cases present'
      intro data envelope members props shape found
      cases envelope
      cases shape
      cases found
      decide
    · cases present'
    · cases present'

theorem not_oneLevel_layeredArticle : ¬ (documentOf layeredArticle).OneLevel := by
  intro oneLevel
  have record := (oneLevel _ rfl _ List.mem_cons_self).record _ _ rfl rfl
  exact (record attributesBlock List.mem_cons_self).1 (by decide)

/-- The flat form of the linked article is left alone, that of the layered one is not. -/
theorem flattened_again_articles :
    ((documentOf flatLinkedArticle).flattened.result = .ok (documentOf flatLinkedArticle) ∧
        (documentOf flatLinkedArticle).flattened.warnings = []) ∧
      (documentOf layeredArticle).flattened.result = .ok (documentOf flatLayeredArticle) ∧
      (documentOf flatLayeredArticle).flattened.result ≠ .ok (documentOf flatLayeredArticle) := by
  have linked : (documentOf linkedArticle).flattened.result =
      .ok (documentOf flatLinkedArticle) := by
    decide +kernel
  have layered : (documentOf layeredArticle).flattened.result =
      .ok (documentOf flatLayeredArticle) := by
    decide +kernel
  refine ⟨(flattened_again linked).1 oneLevel_linkedArticle, layered, ?_⟩
  intro fixed
  exact not_oneLevel_layeredArticle
    ((flattened_again layered).2 (directBlocks_of_references_eq_nil (by decide)) fixed)

end Json

end HyperSchema
