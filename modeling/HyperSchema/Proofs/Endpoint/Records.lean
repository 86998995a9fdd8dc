import HyperSchema.Proofs.Endpoint.RequestShape
import HyperSchema.Proofs.Repetition
import HyperSchema.Proofs.Schema.Objects

/-!
# Records — what the shape of a body says about the records in it

The data in a request body reaches some object schemas, one for each kind of record.  This file
defines:

* `Fields.Shows`, for fields that are known or not, and `Fields.combine_eq_known_iff`: together,
  fields are known if all of them are, and then they are those of all of them;
* `RequestShape.PinsType`, `RequestShape.DeclaresFields` and `RequestShape.declaredFields`, what one
  object schema says about its records;
* `RequestShape.ambiguity?_eq_none_iff`, when flat arguments can be told apart;
* `RequestShape.meaning_of_ofBody`: a shape pins a type if all object schemas do, and knows the
  fields in a block if all of them declare these; without any of them it leaves both open.
-/

namespace HyperSchema

open Schema

/-! ## Several records -/

/-- Fields show whether the names in a block are known, and which they are, each where it first
occurs. -/
def Fields.Shows (isKnown : Prop) (names : List String) : Fields → Prop
  | known found => isKnown ∧ found = names.eraseDups
  | any => ¬isKnown

section Combine

variable {α : Type} {P : α → Prop} {f : α → List String} {list : List α} {sets : List Fields}

theorem Fields.Shows.isDistinct {isKnown : Prop} {names : List String} {fields : Fields}
    (shown : fields.Shows isKnown names) : fields.IsDistinct := by
  cases fields with
  | any => trivial
  | known found =>
      rw [shown.2]
      exact nodup_eraseDups names

/-- The names in all sets are those of what the sets show, if each of them is known. -/
theorem Fields.names_of_forall₂_shows
    (h : List.Forall₂ (fun element fields => Shows (P element) (f element) fields) list sets) :
    match sets.mapM names? with
    | some lists =>
        (∀ element ∈ list, P element) ∧ lists.flatten.eraseDups = (list.flatMap f).eraseDups
    | none => ¬∀ element ∈ list, P element := by
  induction h with
  | nil => exact ⟨fun _ mem => (List.not_mem_nil mem).elim, rfl⟩
  | @cons element fields rest others head _ ih =>
      rw [List.mapM_cons]
      cases fields with
      | any => exact fun all => head (all element List.mem_cons_self)
      | known found =>
          cases tail : others.mapM names? with
          | none =>
              rw [tail] at ih
              exact fun all => ih fun element mem => all element (List.mem_cons_of_mem _ mem)
          | some lists =>
              rw [tail] at ih
              rcases ih with ⟨all, same⟩
              rcases head with ⟨shown, rfl⟩
              refine ⟨List.forall_mem_cons.2 ⟨shown, all⟩, ?_⟩
              calc ((f element).eraseDups :: lists).flatten.eraseDups
                  = (f element ++ lists.flatten).eraseDups := eraseDups_append_of_eraseDups _ _
                _ = ((f element).eraseDups ++ lists.flatten.eraseDups).eraseDups :=
                    (eraseDups_append_eraseDups _ _).symm
                _ = ((f element).eraseDups ++ (rest.flatMap f).eraseDups).eraseDups := by rw [same]
                _ = (f element ++ rest.flatMap f).eraseDups := eraseDups_append_eraseDups _ _

/-- Together, fields are known if there are some and all of them are known. -/
theorem Fields.combine_eq_known_iff
    (h : List.Forall₂ (fun element fields => Shows (P element) (f element) fields) list sets)
    {names : List String} :
    combine sets = .known names ↔
      list ≠ [] ∧ (∀ element ∈ list, P element) ∧ names = (list.flatMap f).eraseDups := by
  have shown := names_of_forall₂_shows h
  have distinct : ∀ fields ∈ sets, fields.IsDistinct := by
    intro fields mem
    rcases exists_of_forall₂ h.flip mem with ⟨element, -, shows⟩
    exact Shows.isDistinct shows
  rw [combine_eq distinct]
  cases h with
  | nil => simp
  | cons head tail =>
      rw [List.isEmpty_cons, if_neg Bool.false_ne_true]
      split
      · rename_i lists found
        rw [found] at shown
        constructor
        · intro same
          cases same
          exact ⟨List.cons_ne_nil _ _, shown⟩
        · rintro ⟨-, -, rfl⟩
          rw [shown.2]
      · rename_i unknown
        rw [unknown] at shown
        constructor
        · intro same
          cases same
        · rintro ⟨-, all, -⟩
          exact (shown all).elim

/-- What several fields show together. -/
theorem Fields.shows_combine
    (h : List.Forall₂ (fun element fields => Shows (P element) (f element) fields) list sets) :
    Shows (list ≠ [] ∧ ∀ element ∈ list, P element) (list.flatMap f) (combine sets) := by
  cases together : combine sets with
  | known names =>
      rcases (combine_eq_known_iff h).1 together with ⟨nonempty, all, rfl⟩
      exact ⟨⟨nonempty, all⟩, rfl⟩
  | any =>
      rintro ⟨nonempty, all⟩
      cases together.symm.trans ((combine_eq_known_iff h).2 ⟨nonempty, all, rfl⟩)

end Combine

namespace RequestShape

variable {body data schema : Json} {members : Entries Json} {path : String} {shape : RequestShape}

/-! ## One record -/

/-- An object schema pins the type of its records: the schema of `type` has this text as its
`const`, or has no text as its `const` and this text alone in its `enum`. -/
def PinsType (members : Entries Json) (name : String) : Prop :=
  ∃ props schema, properties members = some props ∧ props.get? "type" = some schema ∧
    (schema.member? "const" = some (.string name) ∨
      (∀ text, schema.member? "const" ≠ some (.string text)) ∧
        schema.member? "enum" = some (.array [.string name]))

/-- What an object schema says about a block of its records. -/
def blockSchema? (block : String) (members : Entries Json) : Option Json :=
  (properties members).bind fun found => found.get? block

/-- The names of the properties that an object schema declares. -/
def propertyKeys (members : Entries Json) : List String :=
  Entries.keys ((properties members).getD [])

/-- An object schema declares the fields in a block: it has no such block, or the block reaches some
objects and all of them declare properties. -/
def DeclaresFields (block : String) (members : Entries Json) : Prop :=
  ∀ schema, blockSchema? block members = some schema →
    objects schema ≠ [] ∧ ∀ object ∈ objects schema, (properties object).isSome = true

/-- The fields that an object schema declares in a block, in the order of the objects that the block
reaches. -/
def declaredFields (block : String) (members : Entries Json) : List String :=
  match blockSchema? block members with
  | some schema => (objects schema).flatMap propertyKeys
  | none => []

theorem constant?_eq_some_iff {name : String} :
    constant? schema = some name ↔
      schema.member? "const" = some (.string name) ∨
        (∀ text, schema.member? "const" ≠ some (.string text)) ∧
          schema.member? "enum" = some (.array [.string name]) := by
  rw [constant?]
  split
  · rename_i text isText
    simp [isText]
  · rename_i noText
    have absent (text : String) : schema.member? "const" ≠ some (.string text) := noText text
    simp only [absent, ne_eq, not_false_iff, implies_true, true_and, false_or]
    split
    · rename_i text single
      simp [single]
    · rename_i notSingle
      simp only [reduceCtorEq, false_iff]
      exact notSingle name

theorem typeOf_eq_only_iff {name : String} :
    typeOf members = .only name ↔ PinsType members name := by
  have pinned : typeOf members = .only name ↔
      ((properties members).bind fun found => found.get? "type").bind constant? = some name := by
    rw [typeOf]
    split
    · rename_i text found
      simp [found]
    · rename_i unknown
      simp [unknown]
  simp only [pinned, PinsType, Option.bind_eq_some_iff, constant?_eq_some_iff]
  constructor
  · rintro ⟨schema, ⟨props, declared, found⟩, constant⟩
    exact ⟨props, schema, declared, found, constant⟩
  · rintro ⟨props, schema, declared, found, constant⟩
    exact ⟨schema, ⟨props, declared, found⟩, constant⟩

theorem shows_of_propertyNames {fields : Fields} (h : propertyNames members path = .ok fields) :
    fields.Shows ((properties members).isSome = true) (propertyKeys members) := by
  unfold propertyNames at h
  split at h
  · rename_i found declared
    cases h
    refine ⟨by rw [declared]; rfl, ?_⟩
    rw [propertyKeys, declared, Option.getD_some]
  · cases h

/-- A block shows its fields if it reaches some objects and all of them declare properties. -/
theorem shows_of_blockFields {fields : Fields} (h : blockFields schema path = .ok fields) :
    fields.Shows
      (objects schema ≠ [] ∧ ∀ object ∈ objects schema, (properties object).isSome = true)
      ((objects schema).flatMap propertyKeys) := by
  unfold blockFields at h
  split at h
  · rename_i target shape
    cases h
    rintro ⟨nonempty, -⟩
    exact nonempty (objects_of_reference shape)
  · split at h
    · rename_i sets gathered
      cases h
      refine Fields.shows_combine ((forall₂_of_gatherObjects gathered).imp ?_)
      rintro object found ⟨path', made⟩
      exact shows_of_propertyNames made
    · rename_i path' failed
      cases h
      rintro ⟨-, all⟩
      rcases exists_object_of_gatherObjects_eq_error failed with
        ⟨object, mem, place, bare⟩ | ⟨place, leaf, other⟩
      · -- The object that stops the walk is one without properties.
        have declared := all object mem
        unfold propertyNames at bare
        split at bare
        · cases bare
        · rename_i none
          rw [none] at declared
          cases declared
      · cases other
    · cases h

theorem shows_of_fieldsUnder {block : String} {fields : Fields}
    (h : fieldsUnder block members path = .ok fields) :
    fields.Shows (DeclaresFields block members) (declaredFields block members) := by
  unfold fieldsUnder at h
  rw [DeclaresFields, declaredFields, blockSchema?]
  split at h
  · rename_i schema found
    simp only [found, Option.some.injEq, forall_eq']
    exact shows_of_blockFields h
  · rename_i lacking
    cases h
    simp [lacking, Fields.Shows]

/-! ## All records -/

/-- The fields that are collected from the records are known if each record declares its own. -/
theorem combine_eq_known_iff_of_gatherObjects {block : String} {sets : List Fields}
    (gathered : gatherObjects (fieldsUnder block) data path = .ok sets) {names : List String} :
    Fields.combine sets = .known names ↔
      objects data ≠ [] ∧ (∀ members ∈ objects data, DeclaresFields block members) ∧
        names = ((objects data).flatMap (declaredFields block)).eraseDups := by
  refine Fields.combine_eq_known_iff ((forall₂_of_gatherObjects gathered).imp ?_)
  rintro members fields ⟨path', made⟩
  exact shows_of_fieldsUnder made

/-- The types that are collected from the records are one if each record pins it. -/
theorem combine_eq_only_iff_of_gatherObjects {types : List RecordType}
    (gathered : gatherObjects (fun members _ => pure (typeOf members)) data path =
      (.ok types : Except SchemaError _)) {name : String} :
    RecordType.combine types = .only name ↔
      objects data ≠ [] ∧ ∀ members ∈ objects data, PinsType members name := by
  have made := forall₂_of_gatherObjects gathered
  have pins : (∀ members ∈ objects data, PinsType members name) ↔
      ∀ type ∈ types, type = .only name := by
    refine forall_iff_of_forall₂ ?_ made
    rintro members type ⟨-, isType⟩
    cases isType
    exact typeOf_eq_only_iff.symm
  have nonempty : objects data = [] ↔ types = [] := by
    rw [← List.length_eq_zero_iff, ← List.length_eq_zero_iff, made.length_eq]
  rw [RecordType.combine_eq_only_iff, pins, ne_eq, ne_eq, nonempty]

/-! ## Ambiguity -/

/-- Where all is known, the names in both blocks decide. -/
theorem ambiguity?_of_known (name : String) (own others : List String) :
    ambiguity? ⟨.only name, .known own, .known others⟩ =
      if own.filter others.contains = [] then none
      else some (.sharedNames (own.filter others.contains)) := by
  simp only [ambiguity?]
  split
  · rename_i none
    rw [if_pos none]
  · rename_i some
    rw [if_neg some]

/-- Flat arguments can be told apart if the type is known, the fields of one block are known, and no
name is known to be in both blocks. -/
theorem ambiguity?_eq_none_iff :
    shape.ambiguity? = none ↔
      (∃ name, shape.recordType = .only name) ∧
        ¬(shape.attributes = .any ∧ shape.relationships = .any) ∧
        ∀ own others, shape.attributes = .known own → shape.relationships = .known others →
          own.Disjoint others := by
  rcases shape with ⟨type, attributes, relationships⟩
  cases type with
  | any => simp [ambiguity?]
  | only name =>
      cases attributes with
      | any => cases relationships <;> simp [ambiguity?]
      | known own =>
          cases relationships with
          | any => simp [ambiguity?]
          | known others =>
              rw [ambiguity?_of_known]
              simp [List.filter_eq_nil_iff, List.Disjoint]

/-- The names that are reported are the fields known to be in both blocks. -/
theorem ambiguity?_eq_sharedNames_iff {shared : List String} :
    shape.ambiguity? = some (.sharedNames shared) ↔
      (∃ name, shape.recordType = .only name) ∧
        ∃ own others, shape.attributes = .known own ∧ shape.relationships = .known others ∧
          shared = own.filter others.contains ∧ shared ≠ [] := by
  rcases shape with ⟨type, attributes, relationships⟩
  cases type with
  | any => simp [ambiguity?]
  | only name =>
      cases attributes with
      | any => cases relationships <;> simp [ambiguity?]
      | known own =>
          cases relationships with
          | any => simp [ambiguity?]
          | known others =>
              rw [ambiguity?_of_known]
              simp only [RecordType.only.injEq, exists_eq', true_and, Fields.known.injEq,
                exists_and_left, exists_eq_left']
              by_cases empty : own.filter others.contains = []
              · rw [if_pos empty, empty]
                simp
              · rw [if_neg empty, Option.some.injEq, Ambiguity.sharedNames.injEq]
                constructor
                · rintro rfl
                  exact ⟨rfl, empty⟩
                · rintro ⟨rfl, -⟩
                  rfl

/-! ## Bodies -/

/-- What the shape of a body says is said by all records that its data describes, and by one of them
at least. -/
theorem meaning_of_ofBody (read : ofBody body path = .ok (some shape)) :
    ∃ data, data? body = some data ∧
      (∀ name, shape.recordType = .only name ↔
        objects data ≠ [] ∧ ∀ members ∈ objects data, PinsType members name) ∧
      (∀ names, shape.attributes = .known names ↔
        objects data ≠ [] ∧ (∀ members ∈ objects data, DeclaresFields attributesBlock members) ∧
          names = ((objects data).flatMap (declaredFields attributesBlock)).eraseDups) ∧
      (∀ names, shape.relationships = .known names ↔
        objects data ≠ [] ∧
          (∀ members ∈ objects data, DeclaresFields relationshipsBlock members) ∧
          names = ((objects data).flatMap (declaredFields relationshipsBlock)).eraseDups) ∧
      (shape.ambiguity? = none ↔
        (∃ name, shape.recordType = .only name) ∧
          ¬(shape.attributes = .any ∧ shape.relationships = .any) ∧
          ∀ own others, shape.attributes = .known own → shape.relationships = .known others →
            own.Disjoint others) ∧
      ∀ shared, shape.ambiguity? = some (.sharedNames shared) ↔
        (∃ name, shape.recordType = .only name) ∧
          ∃ own others, shape.attributes = .known own ∧ shape.relationships = .known others ∧
            shared = own.filter others.contains ∧ shared ≠ [] := by
  cases envelope : data? body with
  | none =>
      rw [ofBody, envelope] at read
      cases read
  | some data =>
      rcases shape_of_ofBody read envelope with ⟨shape', same, made⟩
      cases same
      rcases parts_of_ofData made with ⟨types, attributes, relationships, first, second, third, rfl⟩
      exact ⟨data, rfl, fun _ => combine_eq_only_iff_of_gatherObjects first,
        fun _ => combine_eq_known_iff_of_gatherObjects second,
        fun _ => combine_eq_known_iff_of_gatherObjects third,
        ambiguity?_eq_none_iff, fun _ => ambiguity?_eq_sharedNames_iff⟩

/-! ### A body with two kinds of records -/

/-- A schema that declares properties about which it says nothing. -/
def fieldsNamed (names : List String) : Json :=
  .object [("properties", .object (names.map fun name => (name, .object [])))]

/-- Nothing, an item, or a list of an item with an owner. -/
def mixedBody : Json :=
  .object [("properties", .object [("data", .object [("anyOf", .array [
    .object [("type", .string "null")],
    .object [("properties", .object [
      ("type", .object [("const", .string "item")]),
      ("attributes", fieldsNamed ["label", "owner"])])],
    .object [("type", .string "array"), ("items", .array [
      .object [("properties", .object [
        ("type", .object [("enum", .array [.string "item"])]),
        ("attributes", .object [("anyOf", .array [fieldsNamed ["size", "label"]])]),
        ("relationships", fieldsNamed ["owner"])])]])]])])])]

/-- The shape of the body with both kinds of items. -/
def mixedShape : RequestShape where
  recordType := .only "item"
  attributes := .known ["label", "owner", "size"]
  relationships := .known ["owner"]

/-- Both kinds have one type, and what is an attribute of one is a relationship of the other. -/
theorem meaning_of_mixedBody :
    ofBody mixedBody "#" = .ok (some mixedShape) ∧
      (∃ data, data? mixedBody = some data ∧ objects data ≠ [] ∧
        (∀ members ∈ objects data, PinsType members "item") ∧
        (∀ members ∈ objects data, DeclaresFields attributesBlock members) ∧
        ["label", "owner", "size"] =
          ((objects data).flatMap (declaredFields attributesBlock)).eraseDups) ∧
      mixedShape.ambiguity? = some (.sharedNames ["owner"]) := by
  have read : ofBody mixedBody "#" = .ok (some mixedShape) := by decide +kernel
  rcases meaning_of_ofBody read with ⟨data, envelope, type, attributes, -, -, shared⟩
  rcases (type "item").1 rfl with ⟨nonempty, pinned⟩
  rcases (attributes _).1 rfl with ⟨-, declared, names⟩
  refine ⟨read, ⟨data, envelope, nonempty, pinned, declared, names⟩, (shared _).2 ?_⟩
  exact ⟨⟨"item", rfl⟩, _, _, rfl, rfl, by decide, by decide⟩

end RequestShape

end HyperSchema
