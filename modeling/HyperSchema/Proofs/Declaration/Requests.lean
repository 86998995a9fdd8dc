import HyperSchema.Proofs.Declaration.Relationships
import Mathlib.Data.List.Forall2

/-!
# Requests — the members of a request, and the index that makes it open

The members of a request are rewritten twice, for metadata and for attributes, before its open index
signatures are left out.  Neither pass makes or hides one, so what is left out can be told from the
members as they are written.  This file defines:

* `Generic.requestMember`, both passes over one member, and what they leave of it;
* `Generic.requestMembers_eq`: the members of a request are those that are not open, in order, and
  the one that tells the type of the record;
* `Generic.IsRequest`, the generic form of the schema of a request.

The main statement is `RuleTable.applyAll_request`.
-/

namespace HyperSchema

open Declaration (Step Place)

/-! ## Members under both passes -/

theorem Member.outline_typeAttributes (newName : String) (m : Member) :
    (m.typeAttributes newName).outline = m.outline := by
  cases m with
  | index key keyType value isReadonly doc => rfl
  | property name type isOptional isReadonly doc =>
      rw [typeAttributes]
      split <;> rfl

theorem Member.isOpenIndex_typeAttributes (newName : String) (m : Member) :
    (m.typeAttributes newName).isOpenIndex = m.isOpenIndex := by
  cases m with
  | index key keyType value isReadonly doc => rfl
  | property name type isOptional isReadonly doc =>
      rw [typeAttributes]
      split <;> rfl

namespace Generic

variable {types : TypeNames} {below : Bool}

/-- No keyword comes from metadata, and none is replaced. -/
theorem mapNames_eq_keyword_iff {t : TypeExpr} {word : Keyword} :
    t.mapNames (metadataName types) below = .keyword word ↔ t = .keyword word := by
  cases t with
  | reference name args =>
      rcases exists_mapNames_reference types below name args with ⟨args', same⟩
      simp [same]
  | _ => simp [TypeExpr.mapNames]

theorem isOpenIndex_iff {m : Member} :
    m.isOpenIndex = true ↔ ∃ key keyType word isReadonly doc,
      m = .index key keyType (.keyword word) isReadonly doc ∧ (word = .unknown ∨ word = .any) := by
  unfold Member.isOpenIndex
  split
  · exact ⟨fun _ => ⟨_, _, _, _, _, rfl, .inl rfl⟩, fun _ => rfl⟩
  · exact ⟨fun _ => ⟨_, _, _, _, _, rfl, .inr rfl⟩, fun _ => rfl⟩
  · rename_i notUnknown notAny
    refine ⟨fun h => (Bool.false_ne_true h).elim, ?_⟩
    rintro ⟨key, keyType, word, isReadonly, doc, rfl, rfl | rfl⟩
    · exact (notUnknown _ _ _ _ rfl).elim
    · exact (notAny _ _ _ _ rfl).elim

theorem isOpenIndex_mapNames (m : Member) :
    (m.mapNames (metadataName types) below).isOpenIndex = m.isOpenIndex := by
  rw [Bool.eq_iff_iff, isOpenIndex_iff, isOpenIndex_iff]
  cases m with
  | property name type isOptional isReadonly doc => simp [Member.mapNames]
  | index key keyType value isReadonly doc =>
      simp [Member.mapNames, mapNames_eq_keyword_iff]

/-- A member of a request before open index signatures are left out: its metadata is made generic
and its attributes are typed. -/
def requestMember (types : TypeNames) (m : Member) : Member :=
  (m.mapNames (metadataName types) false).typeAttributes types.attributesInRequest

theorem outline_requestMember (types : TypeNames) (m : Member) :
    (requestMember types m).outline = m.outline := by
  rw [requestMember, Member.outline_typeAttributes, Member.outline_mapNames]

/-- The passes neither make nor hide an open index signature, so it does not matter whether one
looks for them before the passes or after. -/
theorem isOpenIndex_requestMember (types : TypeNames) (m : Member) :
    (requestMember types m).isOpenIndex = m.isOpenIndex := by
  rw [requestMember, Member.isOpenIndex_typeAttributes, isOpenIndex_mapNames]

theorem any_isOpenIndex_requestMember (types : TypeNames) (members : List Member) :
    (members.map (requestMember types)).any Member.isOpenIndex =
      members.any Member.isOpenIndex := by
  simp only [List.any_map, Function.comp_def, isOpenIndex_requestMember]

theorem typedMembers_eq (types : TypeNames) (members : List Member) :
    typedMembers types members = members.map (requestMember types) := by
  rw [typedMembers, Member.typeAttributesAll_eq_map, membersWithMetadata,
    Member.mapNamesAll_eq_map, List.map_map]
  rfl

/-- Whether a request is open can be told from its members as they are written. -/
theorem any_isOpenIndex_typedMembers (types : TypeNames) (members : List Member) :
    (typedMembers types members).any Member.isOpenIndex = members.any Member.isOpenIndex := by
  rw [typedMembers_eq, any_isOpenIndex_requestMember]

/-- The members of a request are those that are not open, in order, and the one that tells the type
of the record. -/
theorem requestMembers_eq (types : TypeNames) (members : List Member) :
    requestMembers types members =
      (members.filter fun m => !m.isOpenIndex).map (requestMember types) ++ [typeIdMember] := by
  rw [requestMembers, typedMembers_eq, List.filter_map]
  simp only [Function.comp_def, isOpenIndex_requestMember]

/-! ## The form of a request -/

/-- Members of a request come from members as they are written: each that is not an open index
signature is there, in order, with the kind, name, flags and documentation it had, and no other.
Behind the passes the open index signatures are the same ones. -/
structure KeepsMembers (types : TypeNames) (members kept : List Member) : Prop where
  outlines : kept.map Member.outline =
    (members.filter fun m => !m.isOpenIndex).map Member.outline
  passes : kept = (members.filter fun m => !m.isOpenIndex).map (requestMember types)
  closed : ∀ m ∈ kept, m.isOpenIndex = false
  openness : (members.map (requestMember types)).any Member.isOpenIndex =
    members.any Member.isOpenIndex

/-- The body of a request comes from a body as it is written: an interface or an object type with an
open index signature becomes an intersection with the attributes of a request, another one keeps its
form, and any other type gets the type of the record beside it. -/
def IsRequestBody (types : TypeNames) (body made : Body) : Prop :=
  let typeId : Member :=
    .property "__itemTypeId" (.access (.named "D") (.string "itemTypeId")) true false none
  let attributes : TypeExpr := .reference types.attributesInRequest [.named "D"]
  match body with
  | .interface bases members => ∃ bases' kept,
      List.Forall₂ (fun base base' => base'.Replaces base (IsOpenMetadata types)
        (.reference types.typeMetadata [.named "D"])) bases bases' ∧
      KeepsMembers types members kept ∧
      (members.any Member.isOpenIndex = true →
        made = .alias (.intersection (bases' ++ [.object (kept ++ [typeId]), attributes]))) ∧
      (members.any Member.isOpenIndex = false → made = .interface bases' (kept ++ [typeId]))
  | .alias (.object members) => ∃ kept,
      KeepsMembers types members kept ∧
      (members.any Member.isOpenIndex = true →
        made = .alias (.intersection [.object (kept ++ [typeId]), attributes])) ∧
      (members.any Member.isOpenIndex = false → made = .alias (.object (kept ++ [typeId])))
  | .alias type =>
      made = .alias (.intersection
        [(withMetadata types type).typeAttributes types.attributesInRequest, .object [typeId]])

/-- A declaration is the generic form of the schema of a request. -/
structure IsRequest (types : TypeNames) (declaration made : Declaration) : Prop where
  name : made.name = declaration.name
  doc : made.doc = declaration.doc
  isExported : made.isExported = declaration.isExported
  params : made.params = declaration.params ++
    [⟨"D", some (.named types.definition), some (.named types.definition)⟩]
  body : IsRequestBody types declaration.body made.body

theorem keepsMembers (types : TypeNames) (members : List Member) :
    KeepsMembers types members
      ((members.filter fun m => !m.isOpenIndex).map (requestMember types)) where
  outlines := by
    rw [List.map_map]
    exact List.map_congr_left fun m _ => outline_requestMember types m
  passes := rfl
  closed := by
    refine List.forall_mem_map.2 ?_
    intro m mem
    rw [isOpenIndex_requestMember, ← Bool.not_eq_true']
    exact (List.mem_filter.1 mem).2
  openness := any_isOpenIndex_requestMember types members

theorem forall₂_withMetadata (types : TypeNames) (bases : List TypeExpr) :
    List.Forall₂ (fun base base' => base'.Replaces base (IsOpenMetadata types)
      (.reference types.typeMetadata [.named "D"])) bases (bases.map (withMetadata types)) := by
  rw [List.forall₂_map_right_iff, List.forall₂_same]
  exact fun base _ => replaces_withMetadata

theorem isRequestBody_itemBody (types : TypeNames) (body : Body) :
    IsRequestBody types body (itemBody types body) := by
  unfold itemBody
  split
  · rename_i bases members
    rw [any_isOpenIndex_typedMembers]
    refine ⟨_, _, forall₂_withMetadata types bases, keepsMembers types members, ?_, ?_⟩
    · intro isOpen
      rw [if_pos isOpen, openRequest, requestMembers_eq]
      rfl
    · intro isClosed
      rw [if_neg (ne_true_of_eq_false isClosed), requestMembers_eq]
      rfl
  · rename_i members
    rw [any_isOpenIndex_typedMembers]
    refine ⟨_, keepsMembers types members, ?_, ?_⟩
    · intro isOpen
      rw [if_pos isOpen, openRequest, requestMembers_eq]
      rfl
    · intro isClosed
      rw [if_neg (ne_true_of_eq_false isClosed), requestMembers_eq]
      rfl
  · rename_i type notObject
    -- What a body that is no interface becomes depends on whether it is an object type.
    cases type with
    | object members => exact (notObject members rfl).elim
    | _ => rfl

end Generic

namespace RuleTable

/-- A declaration that is listed as the schema of a request keeps its members, loses what makes it
open, and gets the type of the record. -/
theorem applyAll_request {set : RuleSet} {table : RuleTable} (built : ofSet set = .ok table)
    {declaration : Declaration} (listed : declaration.name ∈ set.itemSchemas)
    (before after : List Declaration) :
    ∃ made, Generic.IsRequest set.types declaration made ∧
      table.applyAll (before ++ declaration :: after) =
        table.applyAll before ++ made :: table.applyAll after := by
  refine ⟨Generic.itemSchema set.types declaration, ?_, ?_⟩
  · exact ⟨rfl, rfl, rfl, rfl, Generic.isRequestBody_itemBody set.types declaration.body⟩
  · exact applyAll_of_lists built .itemSchema listed rfl before after

/-- An open request with a base, metadata, attributes and an index signature of each kind. -/
def updateSchema : Declaration where
  name := "ItemUpdateSchema"
  doc := some "What to change."
  params := [⟨"T", none, some (.keyword .never)⟩]
  body := .interface [.reference "Base" [.named "ItemTypeData"]]
    [.index "any" (.keyword .string) (.keyword .any) false none,
      .property "id" (.keyword .string) true true (some "Its name."),
      .property "attributes"
        (.object [.index "key" (.keyword .string) (.keyword .unknown) false none]) false false none,
      .property "item_type" (.named "ItemTypeData") true false none,
      .index "key" (.keyword .string) (.named "unknown") true none,
      .index "rest" (.keyword .string) (.keyword .unknown) false none]
  isExported := true

theorem applyAll_request_updateSchema :
    ofSet .standard = .ok standard ∧ updateSchema.name ∈ RuleSet.standard.itemSchemas ∧
      ∃ made, Generic.IsRequest .standard updateSchema made ∧
        standard.applyAll ([] ++ updateSchema :: []) =
          standard.applyAll [] ++ made :: standard.applyAll [] := by
  have listed : updateSchema.name ∈ RuleSet.standard.itemSchemas := by decide
  exact ⟨ofSet_standard, listed, applyAll_request ofSet_standard listed [] []⟩

end RuleTable

end HyperSchema
