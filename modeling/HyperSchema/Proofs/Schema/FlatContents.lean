import HyperSchema.Proofs.Entries
import HyperSchema.Proofs.Json.Equality
import HyperSchema.Proofs.Schema.Flattening

/-!
# Contents — what a flat record contains, and in which order

A flat record is put together from a record and its two blocks.  This file defines:

* `Schema.Resolves`, what a value is read as along the references in a document;
* `Schema.Unwraps`, the schema of a relationship without its wrapper;
* `Schema.contents`, the properties of a record and its blocks in the order in which they are
  collected, and `Schema.promoted`, the names that are required of them;
* `Schema.IsFlatForm`, for a record with these contents;
* `Schema.isFlatForm_of_flattenRecord`: flattening a record gives its flat form.
-/

namespace HyperSchema.Schema

variable {root : Json} {members props out : Entries Json} {path : String}

/-! ## Blocks -/

/-- A value is read as another one: it is no reference and the value itself, or a reference to a
value that is read as the other one. -/
inductive Resolves (root : Json) : Json → Json → Prop where
  | here {value : Json} : value.reference? = none → Resolves root value value
  | along {value next final : Json} {reference : String} :
      value.reference? = some reference → root.target? reference = some next →
        Resolves root next final → Resolves root value final

theorem resolves_of_follow? {steps : Nat} {value final : Json}
    (h : follow? root steps value = some final) : Resolves root value final := by
  induction steps generalizing value with
  | zero => cases h
  | succ steps ih =>
      rw [follow?] at h
      split at h
      · rename_i direct
        cases h
        exact .here direct
      · rename_i reference isReference
        rcases Option.bind_eq_some_iff.1 h with ⟨next, leads, followed⟩
        exact .along isReference leads (ih followed)

/-- The properties that a block declares.  A block that is missing declares none. -/
def declaredIn (block : Option Json) : Option (Entries Json) :=
  (block.bind Json.members?).bind properties

/-- The names that a block requires. -/
def requiredIn (block : Option Json) : List String :=
  match block.bind Json.members? with
  | some members => required members
  | none => []

/-- What is read under the name of a block. -/
def Block.ofFound : Option Json → Block
  | some value => ofValue value
  | none => absent

theorem properties?_ofFound (found : Option Json) :
    (Block.ofFound found).properties? = declaredIn found := by
  cases found with
  | none => rfl
  | some value => cases value <;> rfl

theorem required_ofFound (found : Option Json) :
    (Block.ofFound found).required = requiredIn found := by
  cases found with
  | none => rfl
  | some value => cases value <;> rfl

theorem isOpen_ofFound_iff {found : Option Json} :
    (Block.ofFound found).isOpen = true ↔ found ≠ none ∧ declaredIn found = none := by
  cases found with
  | none => simp [Block.ofFound, Block.isOpen]
  | some value =>
      rw [Block.ofFound, isOpen_ofValue, Option.isNone_iff_eq_none]
      exact (and_iff_right (Option.some_ne_none value)).symm

/-- A block is what its schema is read as. -/
theorem found_of_block {name : String} {found : Block}
    (h : block root props path name = .ok found) :
    ∃ value, Option.Rel (Resolves root) (props.get? name) value ∧ found = .ofFound value := by
  unfold block at h
  split at h
  · rename_i missing
    cases h
    rw [missing]
    exact ⟨none, .none, rfl⟩
  · rename_i schema present
    split at h
    · rename_i value followed
      cases h
      rw [present]
      exact ⟨some value, .some (resolves_of_follow? followed), rfl⟩
    · cases h

/-! ## Relationships -/

/-- An object schema wraps the schema of its property `data`. -/
def Wraps (schema : Json) (members : Entries Json) (data : Json) : Prop :=
  schema.node = .object members ∧
    ∃ props, properties members = some props ∧ props.get? "data" = some data

/-- The description of a wrapper can go into the object that it wraps. -/
def TakesDescription (members : Entries Json) (text : Json) (inner : Entries Json) : Prop :=
  members.get? "description" = some text ∧ inner.get? "description" = none ∧
    inner.get? "$ref" = none

/-- The schema of a relationship without its wrapper. -/
inductive Unwraps : Json → Json → Prop where
  /-- What wraps nothing is kept. -/
  | kept {schema : Json} : (∀ members data, ¬Wraps schema members data) → Unwraps schema schema
  /-- What is wrapped takes the description. -/
  | described {schema text : Json} {members inner : Entries Json} :
      Wraps schema members (.object inner) → TakesDescription members text inner →
        Unwraps schema (.object (inner ++ [("description", text)]))
  /-- What is wrapped stands alone. -/
  | plain {schema data : Json} {members : Entries Json} :
      Wraps schema members data →
        (∀ text inner, data = .object inner → ¬TakesDescription members text inner) →
        Unwraps schema data

theorem unwraps_describe {schema data : Json} {members : Entries Json}
    (wraps : Wraps schema members data) :
    Unwraps schema (describe (members.get? "description") data) := by
  unfold describe
  split
  · rename_i text inner isText
    split
    · rename_i kept
      refine .plain wraps ?_
      rintro _ _ same ⟨-, noText, noReference⟩
      cases same
      rw [Entries.contains, Entries.contains, noText, noReference] at kept
      cases kept
    · rename_i new
      rw [Bool.not_eq_true, Bool.or_eq_false_iff, Entries.contains, Entries.contains,
        Option.isSome_eq_false_iff, Option.isSome_eq_false_iff, Option.isNone_iff_eq_none,
        Option.isNone_iff_eq_none] at new
      rw [Entries.insert_of_get?_eq_none new.1]
      exact .described wraps ⟨isText, new⟩
  · rename_i other
    refine .plain wraps ?_
    rintro text inner rfl ⟨isText, -⟩
    exact other text inner isText rfl

theorem unwraps_relationshipData (schema : Json) : Unwraps schema (relationshipData schema) := by
  unfold relationshipData
  split
  · rename_i members shape
    split
    · rename_i data found
      exact unwraps_describe ⟨shape, Option.bind_eq_some_iff.1 found⟩
    · rename_i noData
      refine .kept ?_
      rintro members' data ⟨shape', props, declared, found⟩
      cases shape.symm.trans shape'
      rw [declared, Option.bind_some, found] at noData
      cases noData
  · rename_i other
    refine .kept ?_
    rintro members data ⟨shape, -⟩
    exact other members shape

/-! ## Properties -/

/-- What a record keeps under a name. -/
def kept (props : Entries Json) (name : String) : Entries Json :=
  ((props.get? name).map fun schema => (name, schema)).toList

/-- The properties of a flat record in the order in which they are collected, where `attributes` is
the block of attributes and `bare` are the relationships without their wrappers. -/
def contents (props : Entries Json) (attributes : Option Json) (bare : Entries Json) :
    Entries Json :=
  kept props "id" ++ kept props "type" ++ (declaredIn attributes).getD [] ++ bare ++
    kept props "meta"

theorem value_addProperties (flat added : Entries Json) :
    (addProperties path flat added).value =
      added.foldl (fun entries pair => entries.insert pair.1 pair.2) flat := by
  induction added generalizing flat with
  | nil => rfl
  | cons entry rest ih =>
      rcases entry with ⟨name, schema⟩
      rw [value_addProperties_cons, ih, List.foldl_cons]

/-- What comes first in a flat record is kept as it is. -/
theorem ofList_kept (props : Entries Json) :
    Entries.ofList (kept props "id" ++ kept props "type") = select props ["id", "type"] := by
  cases isId : props.get? "id" <;> cases isType : props.get? "type" <;>
    simp [kept, select, Entries.ofList, Entries.insert, isId, isType]

/-- The properties of a flat record are collected one after another. -/
theorem flatProperties_eq_ofList (attributes relationships : Option Json) :
    flatProperties path props (.ofFound attributes) (.ofFound relationships) =
      Entries.ofList
        (contents props attributes (Block.ofFound relationships).relationshipEntries) := by
  have own : (Block.ofFound attributes).attributeEntries = (declaredIn attributes).getD [] := by
    rw [Block.attributeEntries, properties?_ofFound]
  have fields : flatFields path props (.ofFound attributes) (.ofFound relationships) =
      Entries.ofList (kept props "id" ++ kept props "type" ++ (declaredIn attributes).getD [] ++
        (Block.ofFound relationships).relationshipEntries) := by
    rw [flatFields, value_addProperties, value_addProperties, own, ← ofList_kept, Entries.ofList,
      Entries.ofList, ← List.foldl_append, ← List.foldl_append,
      ← List.append_assoc]
  rw [flatProperties, fields, contents]
  cases isMeta : props.get? "meta" with
  | none => simp [kept, isMeta]
  | some schema => simp [kept, isMeta, Entries.ofList]

/-! ## Records -/

/-- The names that a flat record requires: those that its required parts require. -/
def promoted (members props : Entries Json) (attributes relationships : Option Json) :
    List String :=
  ((if attributesBlock ∈ required members then requiredIn attributes else []) ++
    (if relationshipsBlock ∈ required members then requiredIn relationships else []) ++
    (if "meta" ∈ required members ∧ props.contains "meta" = true then ["meta"] else [])).eraseDups

/-- A record is the flat form of another one with the given properties, where its blocks are read as
`attributes` and `relationships`, and `bare` are the relationships without their wrappers. -/
structure IsFlatForm (members props : Entries Json) (attributes relationships : Option Json)
    (bare out : Entries Json) : Prop where
  /-- Of a repeated property the first place and the last schema are kept. -/
  properties : ∃ flat, properties out = some flat ∧
    flat.keys = (contents props attributes bare).keys.eraseDups ∧
    ∀ name, flat.get? name = Entries.get? (contents props attributes bare).reverse name
  /-- The record is open if its attributes are there and declare no properties. -/
  isOpen : ∃ isOpen, out.get? "additionalProperties" = some (.bool isOpen) ∧
    (isOpen = true ↔ attributes ≠ none ∧ declaredIn attributes = none)
  required : out.get? "required" =
    if promoted members props attributes relationships = [] then none
    else some (.array ((promoted members props attributes relationships).map Json.string))
  /-- The other members stand in order, with the required names and the openness behind them. -/
  names : out.keys =
    (members.keys.filter fun key => key ∉ ["required", "additionalProperties"]) ++
      (if promoted members props attributes relationships = [] then [] else ["required"]) ++
      ["additionalProperties"]
  others : ∀ key, key ∉ ["properties", "required", "additionalProperties"] →
    out.get? key = members.get? key

theorem flatRequired_eq_promoted (attributes relationships : Option Json) :
    flatRequired (required members) (props.contains "meta") (.ofFound attributes)
      (.ofFound relationships) = promoted members props attributes relationships := by
  rw [flatRequired, promoted, required_ofFound, required_ofFound]
  simp [and_comm]

theorem keys_flatMembers (members flat : Entries Json) (names : List String) (isOpen : Bool) :
    (flatMembers members flat names isOpen).keys =
      (members.keys.filter fun key => key ∉ ["required", "additionalProperties"]) ++
        (if names = [] then [] else ["required"]) ++ ["additionalProperties"] := by
  have other (key : String) : (key != "required" && key != "additionalProperties") =
      decide (key ∉ ["required", "additionalProperties"]) := by
    rw [Bool.eq_iff_iff]
    simp
  rw [flatMembers]
  simp only [other]
  cases names <;> simp [Entries.keys, List.filter_map, Function.comp_def]

/-- Flattening a record with a block gives its flat form, with the blocks read through their
references and the relationships taken out of their wrappers. -/
theorem isFlatForm_of_flattenRecord (flattened : (flattenRecord root members path).result = .ok out)
    (declared : properties members = some props)
    (hasBlock : (props.contains attributesBlock || props.contains relationshipsBlock) = true) :
    ∃ attributes relationships bare,
      Option.Rel (Resolves root) (props.get? attributesBlock) attributes ∧
      Option.Rel (Resolves root) (props.get? relationshipsBlock) relationships ∧
      List.Forall₂ (fun entry made => made.1 = entry.1 ∧ Unwraps entry.2 made.2)
        ((declaredIn relationships).getD []) bare ∧
      IsFlatForm members props attributes relationships bare out := by
  have others (key : String) (other : key ∉ ["properties", "required", "additionalProperties"]) :
      out.get? key = members.get? key :=
    get?_of_flattenRecord flattened other
  rw [flattenRecord_of_block declared hasBlock] at flattened
  rcases blocks_of_flattenBlocks flattened with ⟨_, _, first, second, rfl⟩
  rcases found_of_block first with ⟨attributes, readAttributes, rfl⟩
  rcases found_of_block second with ⟨relationships, readRelationships, rfl⟩
  refine ⟨attributes, relationships, (Block.ofFound relationships).relationshipEntries,
    readAttributes, readRelationships, ?unwrapped, ?properties, ?isOpen, ?required, ?names, others⟩
  case unwrapped =>
      rw [Block.relationshipEntries, properties?_ofFound, List.forall₂_map_right_iff,
        List.forall₂_same]
      exact fun entry _ => ⟨rfl, unwraps_relationshipData entry.2⟩
  case properties =>
      refine ⟨_, properties_flatMembers declared, ?_⟩
      rw [flatProperties_eq_ofList]
      exact ⟨Entries.keys_ofList _, Entries.get?_ofList _⟩
  case isOpen =>
      refine ⟨_, ?_, isOpen_ofFound_iff⟩
      rw [get?_flatMembers]
      rfl
  case required =>
      rw [get?_flatMembers, flatRequired_eq_promoted]
      simp
  case names =>
      rw [keys_flatMembers, flatRequired_eq_promoted]

/-! ### A record with names in common -/

/-- The fields of a post, which repeat the name `type`. -/
def postFields : Json :=
  .object [
    ("properties", .object [("title", .object []), ("type", .object [("const", .string "post")])]),
    ("required", .array [.string "title"])]

/-- The relationships of a post, which repeat the name `title`. -/
def postRelationships : Json :=
  .object [
    ("properties", .object [
      ("author", .object [
        ("description", .string "The author."),
        ("properties", .object [("data", .object [("type", .string "object")])])]),
      ("title", .object [("$ref", .string "#/definitions/fields")])]),
    ("required", .array [.string "author", .string "title"])]

/-- A document with the fields of a post. -/
def postRoot : Json :=
  .object [("definitions", .object [("fields", postFields)])]

/-- The properties of a post, which refer to its fields. -/
def postProperties : Entries Json :=
  [("meta", .object []), ("type", .object []),
    ("attributes", .object [("$ref", .string "#/definitions/fields")]),
    ("relationships", postRelationships)]

/-- A post, which requires its relationships only. -/
def post : Entries Json :=
  [("required", .array [.string "relationships", .string "meta"]),
    ("properties", .object postProperties), ("additionalProperties", .bool true),
    ("title", .string "Post")]

/-- The flat form of a post. -/
def flatPost : Entries Json :=
  [("properties", .object [
      ("type", .object [("const", .string "post")]),
      ("title", .object [("$ref", .string "#/definitions/fields")]),
      ("author", .object [
        ("type", .string "object"), ("description", .string "The author.")]),
      ("meta", .object [])]),
    ("title", .string "Post"),
    ("required", .array [.string "author", .string "title", .string "meta"]),
    ("additionalProperties", .bool false)]

/-- A post is made into its flat form, in which each name is kept once. -/
theorem isFlatForm_flatPost :
    (flattenRecord postRoot post "#/definitions/post").result = .ok flatPost ∧
      properties post = some postProperties ∧
      (postProperties.contains attributesBlock || postProperties.contains relationshipsBlock) =
        true ∧
      ∃ attributes relationships bare,
        Option.Rel (Resolves postRoot) (postProperties.get? attributesBlock) attributes ∧
        Option.Rel (Resolves postRoot) (postProperties.get? relationshipsBlock) relationships ∧
        List.Forall₂ (fun entry made => made.1 = entry.1 ∧ Unwraps entry.2 made.2)
          ((declaredIn relationships).getD []) bare ∧
        IsFlatForm post postProperties attributes relationships bare flatPost := by
  have flattened : (flattenRecord postRoot post "#/definitions/post").result = .ok flatPost := by
    decide +kernel
  exact ⟨flattened, rfl, rfl, isFlatForm_of_flattenRecord flattened rfl rfl⟩

end HyperSchema.Schema
