import HyperSchema.Proofs.Schema.Frame
import HyperSchema.Proofs.Schema.Inlining
import HyperSchema.Proofs.Schema.Visits

/-!
# Mentions — where the references of a flat document come from

Flattening moves schemas and puts them together in new objects, but it writes no references.  This
file defines:

* `Json.mem_references_iff`, the objects in which the references of a value stand;
* `Schema.Unwrapped`, the texts that come to stand under `$ref` because the object around them goes;
* `Schema.Supplies`, a document has a text as a reference or unwraps it;
* `Schema.Supplied`, a value whose references are all supplied, with the laws for storing it;
* `Schema.supplied_of_flattenRecord` and its likes for each level of a document;
* `Json.mem_references_of_flattened`: each reference of a flat document is one of its source or is
  unwrapped.
-/

namespace HyperSchema

namespace Json

variable {value : Json} {members : Entries Json} {reference : String}

theorem mem_references_array {items : List Json} :
    reference ∈ (array items).references ↔ ∃ item ∈ items, reference ∈ item.references := by
  rw [references, referencesOfItems_eq_flatMap, List.mem_flatMap]

theorem mem_references_cons {item : Json} {rest : List Json} :
    reference ∈ (array (item :: rest)).references ↔
      reference ∈ item.references ∨ reference ∈ (array rest).references := by
  simp [mem_references_array]

theorem mem_references_object :
    reference ∈ (object members).references ↔
      ∃ entry ∈ members, entry = ("$ref", .string reference) ∨ reference ∈ entry.2.references := by
  have text (entry : String × Json) :
      reference ∈ (if entry.1 = "$ref" then entry.2.string?.toList else []) ↔
        entry = ("$ref", .string reference) := by
    rcases entry with ⟨name, value⟩
    by_cases isReference : name = "$ref"
    · cases value <;> simp [isReference, string?, eq_comm]
    · simp [isReference]
  rw [references, referencesOfMembers_eq_flatMap, List.mem_flatMap]
  simp only [List.mem_append, text]

/-- A reference stands in an object inside the value. -/
theorem mem_references_iff :
    reference ∈ value.references ↔
      ∃ members, Part (.object members) value ∧ ("$ref", .string reference) ∈ members := by
  constructor
  · induction value using Json.induct with
    | array items ih =>
        intro h
        rcases mem_references_array.1 h with ⟨item, mem, inside⟩
        rcases ih item mem inside with ⟨members, part, stands⟩
        exact ⟨members, .item mem part, stands⟩
    | object members ih =>
        intro h
        rcases mem_references_object.1 h with ⟨entry, mem, rfl | inside⟩
        · exact ⟨members, .whole, mem⟩
        · rcases ih entry mem inside with ⟨others, part, stands⟩
          exact ⟨others, .member mem part, stands⟩
    | _ =>
        intro h
        cases h
  · rintro ⟨members, part, stands⟩
    exact mem_references stands part

theorem mem_references_of_part {part : Json} (inside : Part part value)
    (h : reference ∈ part.references) : reference ∈ value.references := by
  rcases mem_references_iff.1 h with ⟨members, stands, mem⟩
  exact mem_references_iff.2 ⟨members, stands.trans inside, mem⟩

/-- What is stored under another name than `$ref` brings its own references only. -/
theorem mem_references_insert {key : String} {stored : Json} (other : key ≠ "$ref")
    (h : reference ∈ (object (members.insert key stored)).references) :
    reference ∈ stored.references ∨ reference ∈ (object members).references := by
  rcases mem_references_object.1 h with ⟨entry, mem, isReference⟩
  rcases Entries.mem_of_mem_insert mem with rfl | mem
  · rcases isReference with same | inside
    · cases same
      exact absurd rfl other
    · exact .inl inside
  · exact .inr (mem_references_object.2 ⟨entry, mem, isReference⟩)

end Json

namespace Schema

open Json (Part mem_references_array mem_references_cons mem_references_object
  mem_references_of_part mem_references_insert)

/-- A text comes to stand under `$ref` if the object around it goes: it is the data of an object
under `$ref`. -/
def Unwrapped (document : Json) (reference : String) : Prop :=
  ∃ members schema fields props, Part (.object members) document ∧ ("$ref", schema) ∈ members ∧
    schema.node = .object fields ∧ properties fields = some props ∧
    props.get? "data" = some (.string reference)

/-- A document has a text as a reference, or unwraps it. -/
def Supplies (document : Json) (reference : String) : Prop :=
  reference ∈ document.references ∨ Unwrapped document reference

/-- A document supplies all references of a value. -/
def Supplied (document value : Json) : Prop :=
  ∀ reference ∈ value.references, Supplies document reference

variable {root schema made value : Json} {members props out : Entries Json}
  {path reference : String}

namespace Supplied

theorem of_part (inside : Part value root) : Supplied root value :=
  fun _ mem => .inl (mem_references_of_part inside mem)

theorem nil : Supplied root (.array []) := by
  intro reference mem
  cases mem

theorem cons {item : Json} {rest : List Json} (first : Supplied root item)
    (others : Supplied root (.array rest)) : Supplied root (.array (item :: rest)) :=
  fun _ mem => (mem_references_cons.1 mem).elim (first _) (others _)

/-- What is stored under another name than `$ref` brings nothing new. -/
theorem insert {key : String} {stored : Json} (known : Supplied root (.object members))
    (new : Supplied root stored) (other : key ≠ "$ref") :
    Supplied root (.object (Entries.insert members key stored)) :=
  fun _ mem => (mem_references_insert other mem).elim (new _) (known _)

end Supplied

/-! ## Records -/

theorem part_of_follow? {steps : Nat} (inside : Part schema root)
    (h : follow? root steps schema = some value) : Part value root := by
  induction steps generalizing schema with
  | zero => cases h
  | succ steps ih =>
      rw [follow?] at h
      split at h
      · cases h
        exact inside
      · rcases Option.bind_eq_some_iff.1 h with ⟨target, found, h⟩
        rcases Option.bind_eq_some_iff.1 found with ⟨pointer, -, stands⟩
        exact ih (Json.part_of_pointer? stands) h

/-- The properties of a block stand in the document. -/
theorem part_of_block {name : String} {found : Block} {entries : Entries Json}
    (inside : Part (.object props) root) (h : block root props path name = .ok found)
    (declared : found.properties? = some entries) : Part (.object entries) root := by
  unfold block at h
  split at h
  · cases h
    cases declared
  · rename_i schema present
    split at h
    · rename_i value followed
      cases h
      have isSchema : Part schema (.object props) := .member (Entries.mem_of_get? present) .whole
      have isValue := part_of_follow? (isSchema.trans inside) followed
      cases value with
      | object members =>
          have isEntries := Entries.mem_of_get? (get?_of_properties declared)
          exact (Part.member isEntries .whole).trans isValue
      | _ => cases declared
    · cases h

/-- A relationship without its wrapper has no references of its own. -/
theorem mem_references_of_relationshipData
    (h : reference ∈ (relationshipData schema).references) : reference ∈ schema.references := by
  unfold relationshipData at h
  split at h
  · rename_i members shape
    cases eq_object_of_node_object shape
    split at h
    · rename_i data found
      rcases Option.bind_eq_some_iff.1 found with ⟨props, declared, isData⟩
      have ofData (inside : reference ∈ data.references) :
          reference ∈ (Json.object members).references :=
        mem_references_of_part (.member (Entries.mem_of_get? (get?_of_properties declared))
          (.member (Entries.mem_of_get? isData) .whole)) inside
      unfold describe at h
      split at h
      · rename_i text fields isText
        -- The description of the wrapper goes with the data.
        split at h
        · exact ofData h
        · rcases mem_references_insert (by decide) h with inside | inside
          · exact mem_references_of_part (.member (Entries.mem_of_get? isText) .whole) inside
          · exact ofData inside
      · exact ofData h
    · exact h
  · exact h

/-- What is a text without its wrapper is a text, or an object with the text as its data. -/
theorem text_of_relationshipData (h : relationshipData schema = .string reference) :
    schema = .string reference ∨ ∃ fields props, schema.node = .object fields ∧
      properties fields = some props ∧ props.get? "data" = some (.string reference) := by
  unfold relationshipData at h
  split at h
  · rename_i members shape
    split at h
    · rename_i data found
      rcases Option.bind_eq_some_iff.1 found with ⟨props, declared, isData⟩
      unfold describe at h
      split at h
      · -- What is described is an object and no text.
        split at h <;> cases h
      · exact .inr ⟨members, props, shape, declared, h ▸ isData⟩
    · exact .inl h
  · exact .inl h

/-- The references among the properties of a flat record are supplied by the document. -/
theorem supplied_flatProperties {attributes relationships : Block}
    (inside : Part (.object props) root)
    (first : block root props path attributesBlock = .ok attributes)
    (second : block root props path relationshipsBlock = .ok relationships) :
    Supplied root (.object (flatProperties path props attributes relationships)) := by
  intro reference h
  rcases mem_references_object.1 h with ⟨⟨name, schema⟩, mem, isReference⟩
  have ofEntry {entries : Entries Json} (part : Part (.object entries) root)
      (mem : (name, schema) ∈ entries) : Supplies root reference :=
    Supplied.of_part part _ (mem_references_object.2 ⟨(name, schema), mem, isReference⟩)
  rcases mem_flatProperties mem with ⟨-, kept⟩ | mem | mem
  · exact ofEntry inside (Entries.mem_of_get? kept)
  · rw [Block.attributeEntries] at mem
    cases declared : attributes.properties? with
    | none =>
        rw [declared] at mem
        cases mem
    | some entries =>
        rw [declared] at mem
        exact ofEntry (part_of_block inside first declared) mem
  · rw [Block.relationshipEntries] at mem
    cases declared : relationships.properties? with
    | none =>
        rw [declared] at mem
        cases mem
    | some entries =>
        have part := part_of_block inside second declared
        rw [declared] at mem
        rcases List.mem_map.1 mem with ⟨⟨name', whole⟩, isEntry, same⟩
        cases same
        -- The wrapper may go around a text, which is then the value of a member.
        rcases isReference with same | inside'
        · rcases Prod.mk.inj same with ⟨rfl, isText⟩
          rcases text_of_relationshipData isText with rfl | ⟨fields, props', wrapper⟩
          · exact Supplied.of_part part _ (mem_references_object.2 ⟨_, isEntry, .inl rfl⟩)
          · exact .inr ⟨entries, whole, fields, props', part, isEntry, wrapper⟩
        · exact Supplied.of_part part _ (mem_references_object.2
            ⟨(name, whole), isEntry, .inr (mem_references_of_relationshipData inside')⟩)

theorem mem_references_flatMembers {flat : Entries Json} {required : List String} {isOpen : Bool}
    (h : reference ∈ (Json.object (flatMembers members flat required isOpen)).references) :
    reference ∈ (Json.object flat).references ∨ reference ∈ (Json.object members).references := by
  rcases mem_references_object.1 h with ⟨entry, mem, isReference⟩
  rw [flatMembers, List.append_assoc] at mem
  rcases List.mem_append.1 mem with mem | mem
  · rcases List.mem_map.1 mem with ⟨⟨name, value⟩, isKept, rfl⟩
    have isMember := (List.mem_filter.1 isKept).1
    by_cases isProperties : name = "properties"
    · left
      simpa [isProperties] using isReference
    · right
      exact mem_references_object.2 ⟨_, isMember, by simpa [isProperties] using isReference⟩
  · -- Behind the members stand texts in an array and a flag.
    rcases List.mem_append.1 mem with mem | mem
    · split at mem
      · cases mem
      · cases List.mem_singleton.1 mem
        simp [Json.references, Json.referencesOfItems_eq_flatMap] at isReference
    · cases List.mem_singleton.1 mem
      simp [Json.references] at isReference

theorem supplied_of_flattenRecord (inside : Part (.object members) root)
    (h : (flattenRecord root members path).result = .ok out) : Supplied root (.object out) := by
  rw [flattenRecord] at h
  split at h
  · cases h
    exact .of_part inside
  · rename_i props declared
    split at h
    · rcases blocks_of_flattenBlocks h with ⟨attributes, relationships, first, second, rfl⟩
      have isProps : Part (.object props) (.object members) :=
        .member (Entries.mem_of_get? (get?_of_properties declared)) .whole
      intro reference mem
      rcases mem_references_flatMembers mem with mem | mem
      · exact supplied_flatProperties (isProps.trans inside) first second _ mem
      · exact Supplied.of_part inside _ mem
    · cases h
      exact .of_part inside

/-! ## Links -/

/-- A walk brings no references, if what it makes of objects of the document does not. -/
theorem supplied_of_mapObjects
    {f : List (String × Json) → String → Checked (List (String × Json))}
    (each : ∀ members path out, Part (.object members) root → (f members path).result = .ok out →
      Supplied root (.object out))
    (inside : Part schema root) (h : (mapObjects f schema path).result = .ok made) :
    Supplied root made := by
  revert made
  revert inside
  refine visits.induct
    (fun schema path => Part schema root →
      ∀ {made}, (mapObjects f schema path).result = .ok made → Supplied root made)
    (fun schemas path i => (∀ schema ∈ schemas, Part schema root) →
      ∀ {made}, (mapTuple f schemas path i).result = .ok made → Supplied root (.array made))
    (fun branches path i => (∀ branch ∈ branches, Part branch root) →
      ∀ {made}, (mapBranches f branches path i).result = .ok made → Supplied root (.array made))
    ?reference ?object ?union ?items ?tuple ?missing ?leaf ?noPlace ?place ?noBranch ?branch
    schema path
  case reference =>
      intro schema path target shape inside made h
      rw [mapObjects_eq, shape] at h
      cases h
      exact .of_part inside
  case object =>
      intro schema path members shape inside made h
      rw [mapObjects_eq, shape] at h
      rcases Checked.ok_of_bind h with ⟨out, made', h⟩
      cases h
      rw [eq_object_of_node_object shape] at inside
      exact each members path out inside made'
  case union =>
      intro schema path members branches shape ih inside made h
      rw [mapObjects_eq, shape] at h
      rcases Checked.ok_of_bind h with ⟨others, made', h⟩
      cases h
      rcases eq_object_of_node_union shape with ⟨rfl, present⟩
      have isBranches := (Part.member (Entries.mem_of_get? present) .whole).trans inside
      have parts : ∀ branch ∈ branches, Part branch root :=
        fun branch isBranch => (Part.item isBranch .whole).trans isBranches
      exact Supplied.insert (.of_part inside) (ih parts made') (by decide)
  case items =>
      intro schema path members item shape ih inside made h
      rw [mapObjects_eq, shape] at h
      rcases Checked.ok_of_bind h with ⟨other, made', h⟩
      cases h
      rcases eq_object_of_node_single shape with ⟨rfl, present⟩
      have isItem := (Part.member (Entries.mem_of_get? present) .whole).trans inside
      exact Supplied.insert (.of_part inside) (ih isItem made') (by decide)
  case tuple =>
      intro schema path members schemas shape ih inside made h
      rw [mapObjects_eq, shape] at h
      rcases Checked.ok_of_bind h with ⟨others, made', h⟩
      cases h
      rcases eq_object_of_node_tuple shape with ⟨rfl, present⟩
      have isTuple := (Part.member (Entries.mem_of_get? present) .whole).trans inside
      have parts : ∀ schema ∈ schemas, Part schema root :=
        fun schema isPlace => (Part.item isPlace .whole).trans isTuple
      exact Supplied.insert (.of_part inside) (ih parts made') (by decide)
  case missing =>
      intro schema path members shape inside made h
      rw [mapObjects_eq, shape] at h
      cases h
      exact .of_part inside
  case leaf =>
      intro schema path shape inside made h
      rw [mapObjects_eq, shape] at h
      cases h
  case noPlace =>
      intro path i inside made h
      rw [mapTuple] at h
      cases h
      exact .nil
  case place =>
      intro path i schema rest ih ihRest inside made h
      rcases List.forall_mem_cons.1 inside with ⟨here, later⟩
      rw [mapTuple] at h
      rcases Checked.ok_of_bind h with ⟨first, head, h⟩
      rcases Checked.ok_of_bind h with ⟨others, tail, h⟩
      cases h
      exact .cons (ih here head) (ihRest later tail)
  case noBranch =>
      intro path i inside made h
      rw [mapBranches] at h
      cases h
      exact .nil
  case branch =>
      intro path i branch rest ih ihRest inside made h
      rcases List.forall_mem_cons.1 inside with ⟨here, later⟩
      rw [mapBranches] at h
      split at h
      · -- The branch that is passed over stays.
        rw [pure_bind] at h
        rcases Checked.ok_of_bind h with ⟨others, tail, h⟩
        cases h
        exact .cons (.of_part here) (ihRest later tail)
      · rcases Checked.ok_of_bind h with ⟨first, head, h⟩
        rcases Checked.ok_of_bind h with ⟨others, tail, h⟩
        cases h
        exact .cons (ih here head) (ihRest later tail)

theorem supplied_of_flattenLinkSchema (inside : Part schema root)
    (h : (flattenLinkSchema root schema path).result = .ok made) : Supplied root made := by
  rw [flattenLinkSchema] at h
  split at h
  · rename_i data envelope
    rcases dataOfEnvelope?_eq_some_iff.1 envelope with ⟨members, props, shape, declared, isData, -⟩
    rw [eq_object_of_node_object shape] at inside
    have isProps : Part data (.object members) :=
      .member (Entries.mem_of_get? (get?_of_properties declared))
        (.member (Entries.mem_of_get? isData) .whole)
    exact supplied_of_mapObjects (fun _ _ _ part made => supplied_of_flattenRecord part made)
      (isProps.trans inside) h
  · cases h
    exact .of_part inside

theorem supplied_of_flattenLinkSchemas {link flat : Entries Json} {names : List String}
    (inside : Part (.object link) root) (noReference : "$ref" ∉ names)
    (before : Supplied root (.object flat))
    (h : (flattenLinkSchemas root path link names flat).result = .ok out) :
    Supplied root (.object out) := by
  induction names generalizing flat with
  | nil =>
      cases h
      exact before
  | cons name rest ih =>
      rw [List.mem_cons, not_or] at noReference
      rw [flattenLinkSchemas] at h
      split at h
      · exact ih noReference.2 before h
      · rename_i schema present
        rcases Checked.ok_of_bind h with ⟨made, flattened, h⟩
        -- What was stored so far is supplied, and so is what is stored now.
        have isSchema := (Part.member (Entries.mem_of_get? present) .whole).trans inside
        have stored := supplied_of_flattenLinkSchema isSchema flattened
        exact ih noReference.2 (before.insert stored (Ne.symm noReference.1)) h

theorem supplied_of_flattenLink {link : Json} (inside : Part link root)
    (h : (flattenLink root link path).result = .ok made) : Supplied root made := by
  cases link with
  | object members =>
      rw [flattenLink] at h
      rcases Checked.ok_of_bind h with ⟨flat, flattened, h⟩
      cases h
      exact supplied_of_flattenLinkSchemas inside (by decide) (.of_part inside) flattened
  | _ =>
      cases h
      exact .of_part inside

theorem supplied_of_flattenLinks {links made : List Json} {i : Nat}
    (inside : ∀ link ∈ links, Part link root)
    (h : (flattenLinks root path i links).result = .ok made) : Supplied root (.array made) := by
  intro reference mem
  rcases mem_references_array.1 mem with ⟨flat, isMade, mem⟩
  rcases exists_of_forall₂ (forall₂_of_flattenLinks h).flip isMade with
    ⟨link, isLink, path', flattened⟩
  exact supplied_of_flattenLink (inside link isLink) flattened _ mem

/-! ## Definitions -/

theorem supplied_of_flattenMembers (inside : Part (.object members) root)
    (h : (flattenMembers root members path).result = .ok out) : Supplied root (.object out) := by
  rw [flattenMembers] at h
  split at h
  · exact supplied_of_flattenRecord inside h
  · cases h
    exact .of_part inside

theorem supplied_of_flattenDefinition {definition : Json} (inside : Part definition root)
    (h : (flattenDefinition root definition path).result = .ok made) : Supplied root made := by
  cases definition with
  | object members =>
      rcases parts_of_flattenDefinition h with
        ⟨flat, flattened, ⟨links, flatLinks, present, each, rfl⟩ | ⟨-, rfl⟩⟩
      · have isLinks := (Part.member (Entries.mem_of_get? present) .whole).trans inside
        have parts : ∀ link ∈ links, Part link root :=
          fun link isLink => (Part.item isLink .whole).trans isLinks
        exact (supplied_of_flattenMembers inside flattened).insert
          (supplied_of_flattenLinks parts each) (by decide)
      · exact supplied_of_flattenMembers inside flattened
  | _ =>
      cases h
      exact .of_part inside

end Schema

/-! ## Documents -/

namespace Json

open Schema

/-- Each reference of a flat document is one of its source, or a text that is unwrapped. -/
theorem mem_references_of_flattened {document out : Json} {reference : String}
    (h : document.flattened.result = .ok out) (mem : reference ∈ out.references) :
    reference ∈ document.references ∨ Unwrapped document reference := by
  rw [flattened] at h
  rcases Checked.ok_of_bind h with ⟨found, read, h⟩
  rw [Checked.result_ofExcept] at read
  rcases Checked.ok_of_bind h with ⟨flat, flattened', h⟩
  cases h
  rcases members_of_definitions read with ⟨members, rfl, present⟩
  rcases mem_references_insert (by decide) mem with mem | mem
  · have isFound : Part (.object found) (.object members) :=
      .member (Entries.mem_of_get? present) .whole
    rcases mem_references_object.1 mem with ⟨⟨name, made⟩, isMade, isReference⟩
    rcases exists_of_forall₂ (forall₂_of_flattenDefinitions flattened').flip isMade with
      ⟨⟨name', definition⟩, isDefinition, same, flattened⟩
    cases same
    have part : Part definition (.object found) := .member isDefinition .whole
    rcases isReference with isText | inside
    · -- Only a text becomes a text.
      cases isText
      cases definition with
      | string text =>
          cases flattened
          exact .inl (mem_references isDefinition isFound)
      | object fields =>
          rcases members_of_flattenDefinition flattened with ⟨flat, out, -, isObject, -⟩
          cases isObject
      | _ => cases flattened
    · exact supplied_of_flattenDefinition (part.trans isFound) flattened _ inside
  · exact .inl mem

end Json

end HyperSchema
