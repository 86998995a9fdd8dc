import HyperSchema.Proofs.Declaration.Requests

/-!
# Attributes — which open attributes of a request are typed

The walk that types open attributes enters objects, unions, intersections and arrays.  It passes
over everything inside a tuple, a conditional type, an index signature or arguments, and over the
bases and the parameters of a declaration.  This file defines:

* `Declaration.Step.isFollowed`, the steps that the walk makes;
* `TypeExpr.Holds` and `TypeExpr.Has`, a member behind some steps and a member anywhere;
* `TypeExpr.holds_mapNames_iff` and `TypeExpr.holds_typeAttributes_iff`, the open attributes behind
  each pass;
* `Declaration.HasOutOfReach`, the open attributes that the walk does not come to.

The main statement is `RuleTable.applyAll_attributes`: an open `attributes` is left if and only if
it is out of reach, and every other one is typed.
-/

namespace HyperSchema

open Declaration (Step Place)

/-! ## Members inside types -/

/-- The steps of the walk that types attributes. -/
def Declaration.Step.isFollowed : Step → Bool
  | .property _ | .alternative | .conjunct | .element => true
  | _ => false

/-- A property named `attributes` that admits anything. -/
def Member.isOpenAttributes : Member → Bool
  | .property name type _ _ _ => name == attributesKey && type.isOpenObject
  | .index .. => false

/-- A type has a member behind some steps. -/
inductive TypeExpr.Holds : TypeExpr → List Step → Member → Prop where
  | member {members : List Member} {m : Member} : m ∈ members → Holds (.object members) [] m
  | inside {t s : TypeExpr} {step : Step} {steps : List Step} {m : Member} :
      (step, s) ∈ t.parts → Holds s steps m → Holds t (step :: steps) m

/-- A type has a member somewhere, but not in the keys of index signatures. -/
def TypeExpr.Has (t : TypeExpr) (m : Member) : Prop :=
  ∃ steps, .key ∉ steps ∧ t.Holds steps m

/-- A declaration has a member somewhere, but not in the keys of index signatures. -/
def Declaration.Has (declaration : Declaration) (m : Member) : Prop :=
  ∃ t ∈ declaration.types, t.Has m

/-- A declaration has a member where no attributes are typed: in a parameter, in a type that it
extends, or behind a step that is not followed. -/
def Declaration.HasOutOfReach (declaration : Declaration) (m : Member) : Prop :=
  (∃ t ∈ declaration.params.flatMap TypeParam.types ++ declaration.body.bases, t.Has m) ∨
    ∃ steps, .key ∉ steps ∧ ¬ (∀ step ∈ steps, step.isFollowed = true) ∧
      declaration.body.own.Holds steps m

namespace TypeExpr

variable {t s : TypeExpr} {step : Step} {steps : List Step} {m : Member}

theorem holds_nil_iff : t.Holds [] m ↔ ∃ members, t = .object members ∧ m ∈ members := by
  constructor
  · intro holds
    cases holds with
    | member mem => exact ⟨_, rfl, mem⟩
  · rintro ⟨members, rfl, mem⟩
    exact .member mem

theorem holds_cons_iff :
    t.Holds (step :: steps) m ↔ ∃ s, (step, s) ∈ t.parts ∧ s.Holds steps m := by
  constructor
  · intro holds
    cases holds with
    | inside mem holds => exact ⟨_, mem, holds⟩
  · rintro ⟨s, mem, holds⟩
    exact .inside mem holds

/-- Behind a step into a type whose parts were changed each on its own. -/
theorem holds_cons_iff_of_parts {made : TypeExpr} {change : Step → TypeExpr → TypeExpr}
    (same : made.parts = t.parts.map fun part => (part.1, change part.1 part.2)) :
    made.Holds (step :: steps) m ↔
      ∃ s, (step, s) ∈ t.parts ∧ (change step s).Holds steps m := by
  rw [holds_cons_iff, same]
  constructor
  · rintro ⟨_, mem, holds⟩
    rcases List.mem_map.1 mem with ⟨⟨step, s⟩, before, changed⟩
    cases changed
    exact ⟨s, before, holds⟩
  · rintro ⟨s, mem, holds⟩
    exact ⟨_, List.mem_map_of_mem mem, holds⟩

theorem not_holds_keyword {word : Keyword} : ¬ (keyword word).Holds steps m := by
  rintro (_ | ⟨mem, _⟩)
  cases mem

theorem not_holds_named {name : String} : ¬ (named name).Holds steps m := by
  rintro (_ | ⟨mem, _⟩)
  cases mem

theorem not_holds_applied {name : String} : ¬ (Generic.applied name).Holds steps m := by
  rintro (_ | ⟨mem, holds⟩)
  rcases List.mem_map.1 mem with ⟨arg, isArg, same⟩
  cases same
  rw [List.mem_singleton.1 isArg] at holds
  exact not_holds_named holds

theorem exists_members_of_isOpenObject (isOpen : t.isOpenObject = true) :
    ∃ members, t = .object members ∧ ∀ m ∈ members, m.isOpenIndex = true := by
  cases t with
  | object members =>
      rw [isOpenObject, Bool.and_eq_true, List.all_eq_true] at isOpen
      exact ⟨members, rfl, isOpen.2⟩
  | _ => cases isOpen

/-- Inside a type that admits anything there is nothing but keywords. -/
theorem steps_eq_nil_of_isOpenObject (isOpen : t.isOpenObject = true) (unkeyed : .key ∉ steps)
    (holds : t.Holds steps m) : steps = [] := by
  cases steps with
  | nil => rfl
  | cons step steps =>
      rcases holds_cons_iff.1 holds with ⟨s, mem, holds⟩
      rcases exists_members_of_isOpenObject isOpen with ⟨members, rfl, areOpen⟩
      rcases List.mem_flatMap.1 mem with ⟨m', inside, mem⟩
      rcases Generic.isOpenIndex_iff.1 (areOpen m' inside) with
        ⟨key, keyType, word, isReadonly, doc, rfl, -⟩
      rcases List.mem_cons.1 mem with same | mem
      · cases same
        exact (unkeyed List.mem_cons_self).elim
      · cases List.mem_singleton.1 mem
        exact (not_holds_keyword holds).elim

theorem not_mem_key_of_followed (followed : ∀ step ∈ steps, step.isFollowed = true) :
    .key ∉ steps :=
  fun mem => nomatch followed .key mem

/-- Inside a type that admits anything the walk comes to no property. -/
theorem not_holds_property_of_isOpenObject {name : String} {type : TypeExpr}
    {isOptional isReadonly : Bool} {doc : Option String} (isOpen : t.isOpenObject = true)
    (followed : ∀ step ∈ steps, step.isFollowed = true) :
    ¬ t.Holds steps (.property name type isOptional isReadonly doc) := by
  intro holds
  rw [steps_eq_nil_of_isOpenObject isOpen (not_mem_key_of_followed followed) holds] at holds
  rcases exists_members_of_isOpenObject isOpen with ⟨members, rfl, areOpen⟩
  rcases holds_nil_iff.1 holds with ⟨_, same, mem⟩
  cases same
  cases areOpen _ mem

end TypeExpr

/-! ## Behind the replacement of metadata -/

namespace Generic

variable {types : TypeNames} {below : Bool} {t : TypeExpr} {m : Member} {steps : List Step}

/-- No object type comes from metadata, and none is replaced. -/
theorem mapNames_eq_object_iff {made : List Member} :
    t.mapNames (metadataName types) below = .object made ↔
      ∃ members, t = .object members ∧
        made = members.map (Member.mapNames (metadataName types) below) := by
  cases t with
  | object members =>
      rw [TypeExpr.mapNames, Member.mapNamesAll_eq_map]
      simp [eq_comm]
  | reference name args =>
      rcases exists_mapNames_reference types below name args with ⟨args', same⟩
      simp [same]
  | _ => simp [TypeExpr.mapNames]

/-- A type that admits anything has no metadata in it. -/
theorem mapNames_of_isOpenObject (isOpen : t.isOpenObject = true) :
    t.mapNames (metadataName types) below = t := by
  rcases TypeExpr.exists_members_of_isOpenObject isOpen with ⟨members, rfl, areOpen⟩
  have each : ∀ m ∈ members, m.mapNames (metadataName types) below = m := by
    intro m mem
    rcases isOpenIndex_iff.1 (areOpen m mem) with ⟨key, keyType, word, isReadonly, doc, rfl, -⟩
    rfl
  rw [TypeExpr.mapNames, Member.mapNamesAll_eq_map, List.map_congr_left each, List.map_id']

theorem isOpenObject_mapNames (t : TypeExpr) :
    (t.mapNames (metadataName types) below).isOpenObject = t.isOpenObject := by
  cases t with
  | object members =>
      simp only [TypeExpr.mapNames, Member.mapNamesAll_eq_map, TypeExpr.isOpenObject,
        List.isEmpty_map, List.all_map, Function.comp_def, isOpenIndex_mapNames]
  | reference name args =>
      rcases exists_mapNames_reference types below name args with ⟨args', same⟩
      rw [same]
      rfl
  | _ => rfl

theorem isOpenAttributes_mapNames (m : Member) :
    (m.mapNames (metadataName types) below).isOpenAttributes = m.isOpenAttributes := by
  cases m with
  | index key keyType value isReadonly doc => rfl
  | property name type isOptional isReadonly doc =>
      rw [Member.mapNames, Member.isOpenAttributes, Member.isOpenAttributes, isOpenObject_mapNames]

theorem mapNames_of_isOpenAttributes (isOpen : m.isOpenAttributes = true) :
    m.mapNames (metadataName types) below = m := by
  cases m with
  | index key keyType value isReadonly doc => cases isOpen
  | property name type isOptional isReadonly doc =>
      rw [Member.isOpenAttributes, Bool.and_eq_true] at isOpen
      rw [Member.mapNames, mapNames_of_isOpenObject isOpen.2]

/-- Open attributes stand behind the same steps as before. -/
theorem holds_mapNames_iff (isOpen : m.isOpenAttributes = true) (unkeyed : .key ∉ steps) :
    (t.mapNames (metadataName types) below).Holds steps m ↔ t.Holds steps m := by
  induction steps generalizing t below with
  | nil =>
      rw [TypeExpr.holds_nil_iff, TypeExpr.holds_nil_iff]
      constructor
      · rintro ⟨made, same, mem⟩
        rcases mapNames_eq_object_iff.1 same with ⟨members, rfl, rfl⟩
        rcases List.mem_map.1 mem with ⟨m', before, rfl⟩
        rw [isOpenAttributes_mapNames] at isOpen
        rw [mapNames_of_isOpenAttributes isOpen]
        exact ⟨members, rfl, before⟩
      · rintro ⟨members, rfl, mem⟩
        refine ⟨_, mapNames_eq_object_iff.2 ⟨members, rfl, rfl⟩, ?_⟩
        exact List.mem_map.2 ⟨m, mem, mapNames_of_isOpenAttributes isOpen⟩
  | cons step steps ih =>
      rw [List.mem_cons, not_or] at unkeyed
      by_cases bare : t = .named types.typeMetadata
      · -- Neither the reference nor what it becomes has a member in it.
        have made : t.mapNames (metadataName types) below = applied types.typeMetadata := by
          rw [bare, TypeExpr.named, TypeExpr.mapNames, metadataName, if_pos rfl]
          rfl
        rw [made, bare]
        exact iff_of_false TypeExpr.not_holds_applied TypeExpr.not_holds_named
      · have stays : t.Stays (metadataName types) below := stays_metadataName bare
        rw [TypeExpr.holds_cons_iff_of_parts (TypeExpr.parts_mapNames stays),
          TypeExpr.holds_cons_iff]
        refine exists_congr fun s => and_congr_right fun _ => ?_
        rw [Step.mapNames_of_ne_key (Ne.symm unkeyed.1)]
        exact ih unkeyed.2

end Generic

/-! ## Behind the walk -/

/-- What becomes of a part on the walk, by the way it stands in its type. -/
def Declaration.Step.typeAttributes (newName : String) : Step → TypeExpr → TypeExpr
  | .property name, part =>
      if name == attributesKey && part.isOpenObject then Generic.applied newName
      else part.typeAttributes newName
  | .alternative, part | .conjunct, part | .element, part => part.typeAttributes newName
  | _, part => part

theorem Declaration.Step.typeAttributes_of_isFollowed (newName : String) (part : TypeExpr)
    {step : Step} (followed : step.isFollowed = true) :
    step.typeAttributes newName part = part.typeAttributes newName ∨
      part.isOpenObject = true ∧ step.typeAttributes newName part = Generic.applied newName := by
  cases step with
  | property name =>
      rw [typeAttributes]
      split
      · rename_i isOpen
        exact .inr ⟨(Bool.and_eq_true_iff.1 isOpen).2, rfl⟩
      · exact .inl rfl
  | alternative => exact .inl rfl
  | conjunct => exact .inl rfl
  | element => exact .inl rfl
  | _ => cases followed

theorem Declaration.Step.typeAttributes_of_not_isFollowed {newName : String} {step : Step}
    {part : TypeExpr} (other : ¬ step.isFollowed = true) :
    step.typeAttributes newName part = part := by
  cases step with
  | property name => exact (other rfl).elim
  | alternative => exact (other rfl).elim
  | conjunct => exact (other rfl).elim
  | element => exact (other rfl).elim
  | _ => rfl

theorem Member.parts_typeAttributes (newName : String) (m : Member) :
    (m.typeAttributes newName).parts =
      m.parts.map fun part => (part.1, part.1.typeAttributes newName part.2) := by
  cases m with
  | index key keyType value isReadonly doc => rfl
  | property name type isOptional isReadonly doc =>
      rw [Member.typeAttributes, parts, List.map_singleton, Step.typeAttributes]
      split <;> rfl

theorem TypeExpr.isOpenObject_typeAttributes (newName : String) (t : TypeExpr) :
    (t.typeAttributes newName).isOpenObject = t.isOpenObject := by
  cases t with
  | object members =>
      simp only [typeAttributes, Member.typeAttributesAll_eq_map, isOpenObject, List.isEmpty_map,
        List.all_map, Function.comp_def, Member.isOpenIndex_typeAttributes]
  | _ => rfl

/-- No member that the walk comes to has open attributes behind it. -/
theorem Member.isOpenAttributes_typeAttributes (newName : String) (m : Member) :
    (m.typeAttributes newName).isOpenAttributes = false := by
  cases m with
  | index key keyType value isReadonly doc => rfl
  | property name type isOptional isReadonly doc =>
      rw [typeAttributes]
      split
      · exact Bool.and_false _
      · rename_i closed
        rw [isOpenAttributes, TypeExpr.isOpenObject_typeAttributes]
        exact eq_false_of_ne_true closed

namespace TypeExpr

variable {t : TypeExpr} {newName : String} {m : Member} {steps : List Step}

theorem parts_typeAttributes (newName : String) (t : TypeExpr) :
    (t.typeAttributes newName).parts =
      t.parts.map fun part => (part.1, part.1.typeAttributes newName part.2) := by
  cases t with
  | object members =>
      simp only [typeAttributes, Member.typeAttributesAll_eq_map, parts, List.flatMap_map,
        List.map_flatMap, Member.parts_typeAttributes]
  | union items | intersection items =>
      simp only [typeAttributes, typeAttributesAll_eq_map, parts, List.map_map]
      rfl
  -- The walk does not enter types of other kinds.
  | _ => simp [typeAttributes, parts, Step.typeAttributes]

/-- An open `attributes` is left if and only if the walk does not come to it. -/
theorem holds_typeAttributes_iff (isOpen : m.isOpenAttributes = true) (unkeyed : .key ∉ steps) :
    (t.typeAttributes newName).Holds steps m ↔
      t.Holds steps m ∧ ¬ ∀ step ∈ steps, step.isFollowed = true := by
  induction steps generalizing t with
  | nil =>
      -- The walk comes to every member of the type itself.
      refine iff_of_false ?_ fun h => h.2 (List.forall_mem_nil _)
      intro holds
      rcases holds_nil_iff.1 holds with ⟨made, same, mem⟩
      cases t with
      | object members =>
          rw [typeAttributes, Member.typeAttributesAll_eq_map] at same
          injection same with same
          rcases List.mem_map.1 (same ▸ mem) with ⟨before, -, rfl⟩
          rw [Member.isOpenAttributes_typeAttributes] at isOpen
          cases isOpen
      | _ => cases same
  | cons step steps ih =>
      rw [List.mem_cons, not_or] at unkeyed
      have each : ∀ s, (step.typeAttributes newName s).Holds steps m ↔
          s.Holds steps m ∧ ¬ ∀ other ∈ step :: steps, other.isFollowed = true := by
        intro s
        rw [List.forall_mem_cons]
        by_cases followed : step.isFollowed = true
        · rcases Step.typeAttributes_of_isFollowed newName s followed with
            same | ⟨isOpenPart, same⟩
          · rw [same, ih unkeyed.2]
            simp only [followed, true_and]
          · -- The walk ends at open attributes, and there is nothing inside them.
            rw [same]
            refine iff_of_false not_holds_applied ?_
            rintro ⟨holds, other⟩
            rw [steps_eq_nil_of_isOpenObject isOpenPart unkeyed.2 holds] at other
            exact other ⟨followed, List.forall_mem_nil _⟩
        · rw [Step.typeAttributes_of_not_isFollowed followed]
          simp only [followed, false_and, not_false_eq_true, and_true, Bool.false_eq_true]
      rw [holds_cons_iff_of_parts (parts_typeAttributes newName t), holds_cons_iff]
      simp only [each, ← and_assoc, exists_and_right]

/-- Open attributes that the walk comes to get the new name, and keep all else. -/
theorem holds_typeAttributes_of_followed (newName : String) {type : TypeExpr}
    {isOptional isReadonly : Bool} {doc : Option String} (isOpen : type.isOpenObject = true)
    (followed : ∀ step ∈ steps, step.isFollowed = true)
    (holds : t.Holds steps (.property attributesKey type isOptional isReadonly doc)) :
    (t.typeAttributes newName).Holds steps
      (.property attributesKey (Generic.applied newName) isOptional isReadonly doc) := by
  induction steps generalizing t with
  | nil =>
      rcases holds_nil_iff.1 holds with ⟨members, rfl, mem⟩
      rw [typeAttributes, Member.typeAttributesAll_eq_map]
      refine .member (List.mem_map.2 ⟨_, mem, ?_⟩)
      rw [Member.typeAttributes, isOpen]
      rfl
  | cons step steps ih =>
      rw [List.forall_mem_cons] at followed
      rcases holds_cons_iff.1 holds with ⟨s, mem, holds⟩
      refine (holds_cons_iff_of_parts (parts_typeAttributes newName t)).2 ⟨s, mem, ?_⟩
      rcases Step.typeAttributes_of_isFollowed newName s followed.1 with same | ⟨isOpenPart, same⟩
      · rw [same]
        exact ih followed.2 holds
      · exact (not_holds_property_of_isOpenObject isOpenPart followed.2 holds).elim

end TypeExpr

/-! ## Behind both passes -/

/-- A member has another one behind some steps, or is it. -/
def Member.Holds (m' : Member) (steps : List Step) (m : Member) : Prop :=
  (steps = [] ∧ m = m') ∨ ∃ part ∈ m'.parts, ∃ rest, steps = part.1 :: rest ∧ part.2.Holds rest m

theorem TypeExpr.holds_object_iff {members : List Member} {steps : List Step} {m : Member} :
    (object members).Holds steps m ↔ ∃ m' ∈ members, m'.Holds steps m := by
  constructor
  · rintro (mem | ⟨mem, holds⟩)
    · exact ⟨m, mem, .inl ⟨rfl, rfl⟩⟩
    · rcases List.mem_flatMap.1 mem with ⟨m', inside, mem⟩
      exact ⟨m', inside, .inr ⟨_, mem, _, rfl, holds⟩⟩
  · rintro ⟨m', inside, ⟨rfl, rfl⟩ | ⟨part, mem, rest, rfl, holds⟩⟩
    · exact .member inside
    · exact .inside (List.mem_flatMap.2 ⟨m', inside, mem⟩) holds

theorem TypeExpr.has_intersection_iff {parts : List TypeExpr} {m : Member} :
    (intersection parts).Has m ↔ ∃ t ∈ parts, t.Has m := by
  constructor
  · rintro ⟨_, unkeyed, _ | ⟨mem, holds⟩⟩
    rcases List.mem_map.1 mem with ⟨t, inside, same⟩
    cases same
    exact ⟨_, inside, _, fun mem => unkeyed (List.mem_cons_of_mem _ mem), holds⟩
  · rintro ⟨t, inside, steps, unkeyed, holds⟩
    refine ⟨.conjunct :: steps, ?_, .inside (List.mem_map_of_mem inside) holds⟩
    rintro (_ | ⟨_, mem⟩)
    exact unkeyed mem

namespace Generic

variable {types : TypeNames} {t : TypeExpr} {m : Member} {members : List Member}
  {steps : List Step} {bases : List TypeExpr}

/-- An open attribute is left behind both passes if and only if the walk does not come to it. -/
theorem holds_typed_iff {newName : String} (isOpen : m.isOpenAttributes = true)
    (unkeyed : .key ∉ steps) :
    ((withMetadata types t).typeAttributes newName).Holds steps m ↔
      t.Holds steps m ∧ ¬ ∀ step ∈ steps, step.isFollowed = true := by
  rw [TypeExpr.holds_typeAttributes_iff isOpen unkeyed, withMetadata,
    holds_mapNames_iff isOpen unkeyed]

theorem isIndex_of_isOpenAttributes (isOpen : m.isOpenAttributes = true) : m.isIndex = false := by
  cases m with
  | property name type isOptional isReadonly doc => rfl
  | index key keyType value isReadonly doc => cases isOpen

/-- An open index signature has no property in it. -/
theorem not_holds_of_isOpenIndex {m' : Member} (isOpen : m'.isOpenIndex = true)
    (unkeyed : .key ∉ steps) (property : m.isIndex = false) : ¬ m'.Holds steps m := by
  rcases isOpenIndex_iff.1 isOpen with ⟨key, keyType, word, isReadonly, doc, rfl, -⟩
  rintro (⟨rfl, rfl⟩ | ⟨part, mem, rest, rfl, holds⟩)
  · cases property
  · rcases List.mem_cons.1 mem with rfl | mem
    · exact unkeyed List.mem_cons_self
    · cases List.mem_singleton.1 mem
      exact TypeExpr.not_holds_keyword holds

theorem holds_typeIdMember_iff : typeIdMember.Holds steps m ↔ steps = [] ∧ m = typeIdMember := by
  refine or_iff_left ?_
  rintro ⟨part, mem, rest, -, holds⟩
  rw [List.mem_singleton.1 mem] at holds
  rcases holds with _ | ⟨mem, holds⟩
  rcases List.mem_cons.1 mem with same | mem
  · cases same
    exact TypeExpr.not_holds_named holds
  · cases List.mem_singleton.1 mem
    cases holds with
    | inside mem _ => cases mem

/-- Apart from the type of the record, the members of a request hold what the members behind both
passes hold. -/
theorem holds_requestMembers_iff (unkeyed : .key ∉ steps) (property : m.isIndex = false) :
    (TypeExpr.object (requestMembers types members)).Holds steps m ↔
      ((withMetadata types (.object members)).typeAttributes types.attributesInRequest).Holds
          steps m ∨
        steps = [] ∧ m = typeIdMember := by
  have typed : (withMetadata types (.object members)).typeAttributes types.attributesInRequest =
      .object (members.map (requestMember types)) := by
    rw [← typedMembers_eq]
    rfl
  rw [typed, requestMembers_eq, TypeExpr.holds_object_iff, TypeExpr.holds_object_iff,
    ← holds_typeIdMember_iff]
  constructor
  · rintro ⟨m', mem, holds⟩
    rcases List.mem_append.1 mem with mem | mem
    · rcases List.mem_map.1 mem with ⟨before, kept, rfl⟩
      exact .inl ⟨_, List.mem_map_of_mem (List.mem_filter.1 kept).1, holds⟩
    · rw [List.mem_singleton.1 mem] at holds
      exact .inr holds
  · rintro (⟨m', mem, holds⟩ | holds)
    · rcases List.mem_map.1 mem with ⟨before, inside, rfl⟩
      -- What is left out had nothing in it.
      have closed : before.isOpenIndex = false := by
        rw [← isOpenIndex_requestMember types before]
        exact eq_false_of_ne_true fun isOpen =>
          not_holds_of_isOpenIndex isOpen unkeyed property holds
      refine ⟨_, List.mem_append_left _ (List.mem_map_of_mem ?_), holds⟩
      refine List.mem_filter.2 ⟨inside, ?_⟩
      rw [closed]
      rfl
    · exact ⟨_, List.mem_append_right _ List.mem_cons_self, holds⟩

/-- The members of a request have the open attributes that the walk does not come to. -/
theorem has_requestMembers_iff (isOpen : m.isOpenAttributes = true) :
    (TypeExpr.object (requestMembers types members)).Has m ↔
      ((withMetadata types (.object members)).typeAttributes types.attributesInRequest).Has m := by
  refine exists_congr fun steps => and_congr_right fun unkeyed => ?_
  rw [holds_requestMembers_iff unkeyed (isIndex_of_isOpenAttributes isOpen)]
  refine or_iff_left ?_
  rintro ⟨-, rfl⟩
  cases isOpen

/-! ## Bodies -/

theorem not_has_typeId (isOpen : m.isOpenAttributes = true) :
    ¬ (TypeExpr.object [typeIdMember]).Has m := by
  rintro ⟨steps, -, holds⟩
  rcases TypeExpr.holds_object_iff.1 holds with ⟨m', mem, holds⟩
  rw [List.mem_singleton.1 mem, holds_typeIdMember_iff] at holds
  rw [holds.2] at isOpen
  cases isOpen

/-- In a request, open attributes stand in the bases, or in what both passes make of the rest. -/
theorem has_itemBody_iff (isOpen : m.isOpenAttributes = true) (body : Body) :
    (∃ t ∈ (itemBody types body).types, t.Has m) ↔
      (∃ t ∈ body.bases.map (withMetadata types), t.Has m) ∨
        ((withMetadata types body.own).typeAttributes types.attributesInRequest).Has m := by
  have attributes : ¬ (requestAttributes types).Has m :=
    fun ⟨_, _, holds⟩ => TypeExpr.not_holds_applied holds
  have inMembers : ∀ members, (TypeExpr.object (requestMembers types members)).Has m ↔
      ((withMetadata types (.object members)).typeAttributes types.attributesInRequest).Has m :=
    fun _ => has_requestMembers_iff isOpen
  have typeId := not_has_typeId isOpen
  -- Neither what is added nor the way the parts are put together has open attributes of its own.
  unfold itemBody
  split
  · dsimp only
    split
    · simp [openRequest, Body.types, Body.bases, Body.own, TypeExpr.has_intersection_iff,
        or_and_right, exists_or, inMembers,
        attributes]
    · simp [Body.types, Body.bases, Body.own, or_and_right, exists_or, inMembers]
  · split
    · simp [openRequest, Body.types, Body.bases, Body.own, TypeExpr.has_intersection_iff, inMembers,
        attributes]
    · simp [Body.types, Body.bases, Body.own, inMembers]
  · simp [Body.types, Body.bases, Body.own, TypeExpr.has_intersection_iff, typeId]

/-- What both passes make of a body is in the request, at its place or as a part of an
intersection. -/
theorem exists_holds_itemBody {body : Body} (unkeyed : .key ∉ steps) (property : m.isIndex = false)
    (holds :
      ((withMetadata types body.own).typeAttributes types.attributesInRequest).Holds steps m) :
    ∃ t ∈ (itemBody types body).types, t.Holds steps m ∨ t.Holds (.conjunct :: steps) m := by
  have inMembers : ∀ members, ((withMetadata types (.object members)).typeAttributes
        types.attributesInRequest).Holds steps m →
      (TypeExpr.object (requestMembers types members)).Holds steps m :=
    fun _ holds => (holds_requestMembers_iff unkeyed property).2 (.inl holds)
  have conjunct : ∀ {parts : List TypeExpr} {t : TypeExpr}, t ∈ parts → t.Holds steps m →
      (TypeExpr.intersection parts).Holds (.conjunct :: steps) m :=
    fun mem holds => .inside (List.mem_map_of_mem mem) holds
  -- An open request and any type but an object become part of an intersection, the others do not.
  unfold itemBody
  split
  · rename_i bases members
    dsimp only
    split
    · refine ⟨_, List.mem_singleton_self _, .inr (conjunct ?_ (inMembers members holds))⟩
      exact List.mem_append_right _ List.mem_cons_self
    · refine ⟨_, List.mem_append_right _ (List.mem_singleton_self _), .inl ?_⟩
      exact inMembers members holds
  · rename_i members
    split
    · refine ⟨_, List.mem_singleton_self _, .inr (conjunct ?_ (inMembers members holds))⟩
      exact List.mem_cons_self
    · exact ⟨_, List.mem_singleton_self _, .inl (inMembers members holds)⟩
  · exact ⟨_, List.mem_singleton_self _, .inr (conjunct List.mem_cons_self holds)⟩

/-! ## Declarations -/

theorem has_withMetadata_iff (isOpen : m.isOpenAttributes = true) :
    (withMetadata types t).Has m ↔ t.Has m :=
  exists_congr fun _ => and_congr_right fun unkeyed => holds_mapNames_iff isOpen unkeyed

theorem not_has_definitionParam : ∀ t ∈ (definitionParam types).types, ¬ t.Has m := by
  rintro t mem ⟨steps, -, holds⟩
  have named : t = .named types.definition := by
    simpa [definitionParam, TypeParam.types] using mem
  rw [named] at holds
  exact TypeExpr.not_holds_named holds

/-- The open attributes of a declaration are typed: what is left is out of reach, and each that is
not got the attributes of a request and is as it was apart from that. -/
structure TypesAttributes (types : TypeNames) (declaration made : Declaration) : Prop where
  left : ∀ m : Member, m.isOpenAttributes = true → (made.Has m ↔ declaration.HasOutOfReach m)
  typed : ∀ steps type isOptional isReadonly doc, (∀ step ∈ steps, step.isFollowed = true) →
    type.isOpenObject = true →
    declaration.body.own.Holds steps (.property "attributes" type isOptional isReadonly doc) →
    ∃ t ∈ made.body.types, ∃ steps', (steps' = steps ∨ steps' = .conjunct :: steps) ∧
      t.Holds steps' (.property "attributes" (.reference types.attributesInRequest [.named "D"])
        isOptional isReadonly doc)

theorem has_itemSchema_iff {declaration : Declaration} (isOpen : m.isOpenAttributes = true) :
    (itemSchema types declaration).Has m ↔ declaration.HasOutOfReach m := by
  have body : ((withMetadata types declaration.body.own).typeAttributes
        types.attributesInRequest).Has m ↔
      ∃ steps, .key ∉ steps ∧ ¬ (∀ step ∈ steps, step.isFollowed = true) ∧
        declaration.body.own.Holds steps m :=
    exists_congr fun steps => and_congr_right fun unkeyed => by
      rw [holds_typed_iff isOpen unkeyed, and_comm]
  have bases : (∃ t ∈ declaration.body.bases.map (withMetadata types), t.Has m) ↔
      ∃ t ∈ declaration.body.bases, t.Has m := by
    simp only [List.mem_map, exists_exists_and_eq_and, has_withMetadata_iff isOpen]
  have params : (∃ t ∈ (declaration.params ++ [definitionParam types]).flatMap TypeParam.types,
      t.Has m) ↔ ∃ t ∈ declaration.params.flatMap TypeParam.types, t.Has m := by
    have none : ¬ ∃ t ∈ (definitionParam types).types, t.Has m :=
      fun ⟨t, mem, has⟩ => not_has_definitionParam t mem has
    rw [List.flatMap_append, List.flatMap_singleton]
    simp only [List.mem_append, or_and_right, exists_or, none, or_false]
  simp only [Declaration.Has, Declaration.types, Declaration.HasOutOfReach, itemSchema,
    List.mem_append, or_and_right, exists_or]
  rw [params, has_itemBody_iff isOpen, bases, body, or_assoc]

theorem typesAttributes_itemSchema (types : TypeNames) (declaration : Declaration) :
    TypesAttributes types declaration (itemSchema types declaration) where
  left := fun _ isOpen => has_itemSchema_iff isOpen
  typed := by
    intro steps type isOptional isReadonly doc followed isOpen holds
    have unkeyed := TypeExpr.not_mem_key_of_followed followed
    have before : (withMetadata types declaration.body.own).Holds steps
        (.property attributesKey type isOptional isReadonly doc) :=
      (holds_mapNames_iff (by rw [Member.isOpenAttributes, isOpen]; rfl) unkeyed).2 holds
    have typed := TypeExpr.holds_typeAttributes_of_followed types.attributesInRequest isOpen followed
      before
    rcases exists_holds_itemBody unkeyed rfl typed with ⟨t, mem, found | found⟩
    · exact ⟨t, mem, steps, .inl rfl, found⟩
    · exact ⟨t, mem, _, .inr rfl, found⟩

end Generic

namespace RuleTable

/-- A declaration that is listed as the schema of a request has its open attributes typed, except
for those that the walk does not come to. -/
theorem applyAll_attributes {set : RuleSet} {table : RuleTable} (built : ofSet set = .ok table)
    {declaration : Declaration} (listed : declaration.name ∈ set.itemSchemas)
    (before after : List Declaration) :
    ∃ made, Generic.TypesAttributes set.types declaration made ∧
      table.applyAll (before ++ declaration :: after) =
        table.applyAll before ++ made :: table.applyAll after := by
  refine ⟨_, Generic.typesAttributes_itemSchema set.types declaration, ?_⟩
  exact applyAll_of_lists built .itemSchema listed rfl before after

/-- Open attributes that the walk does not come to. -/
def pairAttributes : Member :=
  .property "attributes" (.object [.index "k" (.keyword .string) (.keyword .unknown) false none])
    false false none

/-- A request with open attributes of its own, and with open attributes in a tuple. -/
def pairSchema : Declaration where
  name := "ItemCreateSchema"
  doc := none
  params := []
  body := .interface []
    [.property "attributes" (.object [.index "k" (.keyword .string) (.keyword .any) false none])
        false false none,
      .property "items" (.tuple [.object [pairAttributes]]) false false none]
  isExported := true

theorem hasOutOfReach_pairSchema : pairSchema.HasOutOfReach pairAttributes := by
  refine .inr ⟨[.property "items", .item], by decide, by decide, ?_⟩
  exact .inside (List.mem_cons_of_mem _ List.mem_cons_self)
    (.inside List.mem_cons_self (.member List.mem_cons_self))

theorem applyAll_attributes_pairSchema :
    ofSet .standard = .ok standard ∧ pairSchema.name ∈ RuleSet.standard.itemSchemas ∧
      ∃ made, Generic.TypesAttributes .standard pairSchema made ∧
        standard.applyAll ([] ++ pairSchema :: []) =
          standard.applyAll [] ++ made :: standard.applyAll [] ∧
        made.Has pairAttributes := by
  have listed : pairSchema.name ∈ RuleSet.standard.itemSchemas := by decide
  rcases applyAll_attributes ofSet_standard listed [] [] with ⟨made, typed, result⟩
  exact ⟨ofSet_standard, listed, made, typed, result, (typed.left _ rfl).2 hasOutOfReach_pairSchema⟩

end RuleTable

end HyperSchema
