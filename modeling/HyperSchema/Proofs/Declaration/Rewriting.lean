import HyperSchema.Declaration.Generic
import HyperSchema.Declaration.RuleSet
import HyperSchema.Proofs.Declaration.Image
import HyperSchema.Proofs.Declaration.Rereading

/-!
# Rewriting — what rules make of printable declarations is printable

A rule rebuilds a declaration around references to the types that its table names.  If those names
can be said and new names of declarations are identifiers, nothing is built that a text cannot say:

* `TypeExpr.said_mapNames` and `TypeExpr.said_typeAttributes`, by induction over the type;
* `Declaration.Prints`, the parts of a printable declaration, and one lemma for each rule;
* `RuleTable.isPrintable_of_mem_applyAll`: a table keeps declarations printable;
* `RuleTable.parse_print_applyAll`: rewritten declarations are read back from their text.
-/

namespace HyperSchema

/-! ## Lists of types and members -/

section Lists

variable (f : Bool → String → Option TypeExpr) (newName : String)

theorem TypeExpr.mapNamesAll_eq_map (below : Bool) (types : List TypeExpr) :
    TypeExpr.mapNamesAll f below types = types.map (TypeExpr.mapNames f below) := by
  induction types with
  | nil => rfl
  | cons type others ih => rw [TypeExpr.mapNamesAll, ih, List.map_cons]

theorem Member.mapNamesAll_eq_map (below : Bool) (members : List Member) :
    Member.mapNamesAll f below members = members.map (Member.mapNames f below) := by
  induction members with
  | nil => rfl
  | cons member others ih => rw [Member.mapNamesAll, ih, List.map_cons]

theorem TypeExpr.typeAttributesAll_eq_map (types : List TypeExpr) :
    TypeExpr.typeAttributesAll newName types = types.map (TypeExpr.typeAttributes newName) := by
  induction types with
  | nil => rfl
  | cons type others ih => rw [TypeExpr.typeAttributesAll, ih, List.map_cons]

theorem Member.typeAttributesAll_eq_map (members : List Member) :
    Member.typeAttributesAll newName members = members.map (Member.typeAttributes newName) := by
  induction members with
  | nil => rfl
  | cons member others ih => rw [Member.typeAttributesAll, ih, List.map_cons]

end Lists

/-! ## Parts of what can be said -/

theorem Member.Said.types {m : Member} (said : m.Said) : ∀ t ∈ m.types, t.Said false := by
  intro t ht
  refine ⟨isLegible_of_mem_types said.legible t ht, ?_⟩
  intro text hm
  refine said.docs text ?_
  cases m with
  | property name type isOptional isReadonly doc =>
      rw [Member.types, List.mem_singleton] at ht
      subst ht
      simp [Member.docs, hm]
  | index key keyType value isReadonly doc =>
      rw [Member.types, List.mem_cons, List.mem_singleton] at ht
      rcases ht with rfl | rfl
      · simp [Member.docs, hm]
      · simp [Member.docs, hm]

theorem Member.Said.doc {name : String} {type : TypeExpr} {isOptional isReadonly : Bool}
    {doc : Option String} (said : (property name type isOptional isReadonly doc).Said) :
    ∀ text ∈ doc, Declaration.isDocText text = true :=
  fun text ht => said.docs text (by simp [Member.docs, Option.mem_def.1 ht])

theorem Member.Said.index {key : String} {keyType value : TypeExpr} {isReadonly : Bool}
    {doc : Option String} (said : (index key keyType value isReadonly doc).Said) :
    Lexer.isIdentifier key.toList = true ∧ ∀ text ∈ doc, Declaration.isDocText text = true := by
  have legible := said.legible
  simp only [isLegible, Bool.and_eq_true] at legible
  exact ⟨legible.1.1, fun text ht => said.docs text (by simp [Member.docs, Option.mem_def.1 ht])⟩

/-- The names of the added parameters can be declared and referred to. -/
theorem Generic.parameterNames {name : String} (h : name ∈ [definitionName, nestedName]) :
    Lexer.isIdentifier name.toList = true ∧ Declaration.isReferenceName false name = true := by
  have all : ([definitionName, nestedName].all fun name =>
      Lexer.isIdentifier name.toList && Declaration.isReferenceName false name) = true := by
    decide +kernel
  simpa using List.all_eq_true.1 all name h

theorem TypeExpr.said_named {name : String} (h : Declaration.isReferenceName false name = true) :
    (named name).Said false :=
  said_reference h nofun

theorem Generic.said_definitionRef : definitionRef.Said false :=
  TypeExpr.said_named (parameterNames List.mem_cons_self).2

theorem Generic.said_applied {name : String} (h : Declaration.isReferenceName false name = true) :
    (applied name).Said false :=
  TypeExpr.said_reference h (List.forall_mem_singleton.2 said_definitionRef)

namespace TypeExpr

theorem said_of_docs {ts : List TypeExpr} (legible : ∀ t ∈ ts, t.isLegible false = true)
    (docs : ∀ text ∈ ts.flatMap docs, Declaration.isDocText text = true) :
    ∀ t ∈ ts, t.Said false := by
  intro t ht
  exact ⟨legible t ht, fun text hm => docs text (List.mem_flatMap.2 ⟨t, ht, hm⟩)⟩

theorem Said.args {name : String} {args : List TypeExpr} (said : (reference name args).Said false) :
    ∀ t ∈ args, t.Said false := by
  rcases said with ⟨legible, docs⟩
  simp only [isLegible, areLegible_eq_all, Bool.and_eq_true, List.all_eq_true] at legible
  rw [TypeExpr.docs, docsAll_eq_flatMap] at docs
  exact said_of_docs legible.2 docs

theorem Said.alternatives {alternatives : List TypeExpr} (said : (union alternatives).Said false) :
    2 ≤ alternatives.length ∧ ∀ t ∈ alternatives, t.Said false := by
  rcases said with ⟨legible, docs⟩
  simp only [isLegible, areLegible_eq_all, Bool.and_eq_true, List.all_eq_true, decide_eq_true_eq]
    at legible
  rw [TypeExpr.docs, docsAll_eq_flatMap] at docs
  exact ⟨legible.1, said_of_docs legible.2 docs⟩

theorem Said.parts {parts : List TypeExpr} (said : (intersection parts).Said false) :
    2 ≤ parts.length ∧ ∀ t ∈ parts, t.Said false :=
  -- Both kinds of lists are judged alike.
  Said.alternatives ⟨said.legible, said.docs⟩

theorem Said.items {items : List TypeExpr} (said : (tuple items).Said false) :
    ∀ t ∈ items, t.SaidItem := by
  rcases said with ⟨legible, docs⟩
  simp only [isLegible, areLegibleItems_eq_all, List.all_eq_true] at legible
  rw [TypeExpr.docs, docsAll_eq_flatMap] at docs
  intro t ht
  exact ⟨legible t ht, fun text hm => docs text (List.mem_flatMap.2 ⟨t, ht, hm⟩)⟩

theorem Said.members {members : List Member} (said : (object members).Said false) :
    ∀ m ∈ members, m.Said := by
  rcases said with ⟨legible, docs⟩
  simp only [isLegible, Member.areLegible_eq_all, List.all_eq_true] at legible
  rw [TypeExpr.docs, Member.docsAll_eq_flatMap] at docs
  intro m hm
  exact ⟨legible m hm, fun text ht => docs text (List.mem_flatMap.2 ⟨m, hm, ht⟩)⟩

theorem Said.branches {check bound whenTrue whenFalse : TypeExpr}
    (said : (conditional check bound whenTrue whenFalse).Said false) :
    check.Said false ∧ bound.Said false ∧ whenTrue.Said false ∧ whenFalse.Said false := by
  rcases said with ⟨legible, docs⟩
  simp only [isLegible, Bool.and_eq_true] at legible
  simp only [TypeExpr.docs, List.forall_mem_append] at docs
  rcases legible with ⟨⟨⟨hc, hb⟩, ht⟩, hf⟩
  rcases docs with ⟨⟨⟨dc, db⟩, dt⟩, df⟩
  exact ⟨⟨hc, dc⟩, ⟨hb, db⟩, ⟨ht, dt⟩, ⟨hf, df⟩⟩

theorem Said.operands {object index : TypeExpr} (said : (access object index).Said false) :
    object.Said false ∧ index.Said false := by
  rcases said with ⟨legible, docs⟩
  simp only [isLegible, Bool.and_eq_true, Bool.false_and] at legible
  simp only [TypeExpr.docs, List.forall_mem_append] at docs
  exact ⟨⟨legible.1, docs.1⟩, ⟨legible.2, docs.2⟩⟩

theorem SaidItem.cases {item : TypeExpr} (said : item.SaidItem) :
    item.Said false ∨ ∃ element, item = rest element ∧ element.Said false := by
  rcases isLegibleItem_cases said.legible with plain | ⟨element, rfl, plain⟩
  · exact .inl ⟨plain, said.docs⟩
  · exact .inr ⟨element, rfl, plain, by simpa using said.docs⟩

/-! ## Replaced names -/

section Names

variable {f : Bool → String → Option TypeExpr}

/-- What a replacement gives for a name can be said and binds as tightly as a name. -/
def GivesNames (f : Bool → String → Option TypeExpr) : Prop :=
  ∀ below name, ∀ type ∈ f below name, type.Said false ∧ type.strength = 5

theorem strength_mapNames (names : GivesNames f) (t : TypeExpr) (below : Bool) :
    (t.mapNames f below).strength = t.strength := by
  cases t with
  | reference name args =>
      cases args with
      | nil =>
          rw [mapNames]
          cases given : f below name with
          | none => rfl
          | some type => exact (names below name type given).2
      | cons arg args => rfl
  | _ => rfl

theorem said_mapNames_member {m : Member} (said : m.Said)
    (types : ∀ t ∈ m.types, t.Said false → ∀ below, (t.mapNames f below).Said false)
    (below : Bool) : (m.mapNames f below).Said := by
  cases m with
  | property name type isOptional isReadonly doc =>
      have whole := said.types type (by simp [Member.types])
      exact Member.said_property said.doc (types type (by simp [Member.types]) whole _)
  | index key keyType value isReadonly doc =>
      have hk := said.types keyType (by simp [Member.types])
      have hv := said.types value (by simp [Member.types])
      exact Member.said_index said.index.1 said.index.2 hk
        (types value (by simp [Member.types]) hv _)

/-- Names are replaced inside a type that can be said so that it still can be said. -/
theorem said_mapNames (names : GivesNames f) {t : TypeExpr} (said : t.Said false) (below : Bool) :
    (t.mapNames f below).Said false := by
  induction t using TypeExpr.induct generalizing below with
  | keyword word => exact said
  | string text => exact said
  | number spelling => exact said
  | boolean value => exact said
  | rest element _ => cases said.legible
  | reference name args ih =>
      have each := said.args
      -- Only a name without arguments is replaced.
      cases args with
      | nil =>
          rw [mapNames]
          cases given : f below name with
          | none => exact said
          | some type => exact (names below name type given).1
      | cons arg args =>
          rw [mapNames, mapNamesAll_eq_map]
          have named := said.legible
          simp only [isLegible, Bool.and_eq_true] at named
          refine said_reference named.1 ?_
          exact List.forall_mem_map.2 fun t ht => ih t ht (each t ht) below
  | array element ih =>
      rw [mapNames]
      exact said_array (ih ⟨said.legible, by simpa using said.docs⟩ below) nofun
  | tuple items ih inner =>
      have each := said.items
      rw [mapNames, mapNamesAll_eq_map]
      refine said_tuple (List.forall_mem_map.2 ?_)
      intro t ht
      rcases (each t ht).cases with plain | ⟨element, rfl, plain⟩
      · exact (ih t ht plain below).item
      · rw [mapNames]
        exact said_rest (inner element ht plain below)
  | union alternatives ih =>
      have each := said.alternatives
      rw [mapNames, mapNamesAll_eq_map]
      refine (said_several (by simpa using each.1) (List.forall_mem_map.2 ?_)).1
      exact fun t ht => ih t ht (each.2 t ht) below
  | intersection parts ih =>
      have each := said.parts
      rw [mapNames, mapNamesAll_eq_map]
      refine (said_several (by simpa using each.1) (List.forall_mem_map.2 ?_)).2
      exact fun t ht => ih t ht (each.2 t ht) below
  | object members ih =>
      have each := said.members
      rw [mapNames, Member.mapNamesAll_eq_map]
      refine said_object (List.forall_mem_map.2 ?_)
      exact fun m hm => said_mapNames_member (each m hm) (ih m hm) below
  | keyOf operand ih =>
      rw [mapNames]
      exact said_keyOf (ih ⟨by simpa using said.legible, by simpa using said.docs⟩ below)
  | conditional check bound whenTrue whenFalse ihc ihb iht ihf =>
      rcases said.branches with ⟨hc, hb, ht, hf⟩
      rw [mapNames]
      exact said_conditional (ihc hc below) (ihb hb below) (iht ht below) (ihf hf below)
  | access object index iho ihi =>
      rw [mapNames]
      exact said_access (iho said.operands.1 below) nofun (ihi said.operands.2 below)

end Names

/-! ## Typed attributes -/

theorem said_typeAttributes_member {newName : String}
    (named : Declaration.isReferenceName false newName = true) {m : Member} (said : m.Said)
    (types : ∀ t ∈ m.types, t.Said false → (t.typeAttributes newName).Said false) :
    (m.typeAttributes newName).Said := by
  cases m with
  | index key keyType value isReadonly doc => exact said
  | property name type isOptional isReadonly doc =>
      have whole := said.types type (by simp [Member.types])
      rw [Member.typeAttributes]
      split
      · exact Member.said_property said.doc (Generic.said_applied named)
      · exact Member.said_property said.doc (types type (by simp [Member.types]) whole)

theorem said_typeAttributes {newName : String}
    (named : Declaration.isReferenceName false newName = true) {t : TypeExpr}
    (said : t.Said false) :
    (t.typeAttributes newName).Said false := by
  induction t using TypeExpr.induct with
  | union alternatives ih =>
      have each := said.alternatives
      rw [typeAttributes, typeAttributesAll_eq_map]
      refine (said_several (by simpa using each.1) (List.forall_mem_map.2 ?_)).1
      exact fun t ht => ih t ht (each.2 t ht)
  | intersection parts ih =>
      have each := said.parts
      rw [typeAttributes, typeAttributesAll_eq_map]
      refine (said_several (by simpa using each.1) (List.forall_mem_map.2 ?_)).2
      exact fun t ht => ih t ht (each.2 t ht)
  | object members ih =>
      have each := said.members
      rw [typeAttributes, Member.typeAttributesAll_eq_map]
      refine said_object (List.forall_mem_map.2 ?_)
      exact fun m hm => said_typeAttributes_member named (each m hm) (ih m hm)
  | array element ih =>
      rw [typeAttributes]
      exact said_array (ih ⟨said.legible, by simpa using said.docs⟩) nofun
  -- The walk does not enter types of other kinds.
  | _ => exact said

end TypeExpr

/-! ## Parts of printable declarations -/

def Body.Prints : Body → Prop
  | .interface bases members =>
      (∀ t ∈ bases, t.Said false ∧ 4 ≤ t.strength) ∧ ∀ m ∈ members, m.Said
  | .alias type => type.Said false

/-- The parts of a declaration that is printable. -/
structure Declaration.Prints (declaration : Declaration) : Prop where
  name : Lexer.isIdentifier declaration.name.toList = true
  doc : ∀ text ∈ declaration.doc, isDocText text = true
  params : ∀ p ∈ declaration.params, p.Said ∧ p.isGrouped = true
  body : declaration.body.Prints

theorem Body.prints_iff (body : Body) : body.Prints ↔ body.isLegible false = true ∧
    body.isGrouped = true ∧ ∀ text ∈ body.docs, Declaration.isDocText text = true := by
  cases body with
  | «alias» type => exact ⟨fun h => ⟨h.legible, rfl, h.docs⟩, fun h => ⟨h.1, h.2.2⟩⟩
  | «interface» bases members =>
      simp only [Prints, isLegible, isGrouped, docs, Bool.and_eq_true, List.all_eq_true,
        decide_eq_true_eq, List.forall_mem_append, List.forall_mem_flatMap]
      constructor
      · rintro ⟨hb, hm⟩
        exact ⟨⟨fun t ht => (hb t ht).1.legible, fun m hm' => (hm m hm').legible⟩,
          fun t ht => (hb t ht).2, fun t ht => (hb t ht).1.docs, fun m hm' => (hm m hm').docs⟩
      · rintro ⟨⟨legible, legible'⟩, strong, docs, docs'⟩
        exact ⟨fun t ht => ⟨⟨legible t ht, docs t ht⟩, strong t ht⟩,
          fun m hm => ⟨legible' m hm, docs' m hm⟩⟩

theorem Declaration.isPrintable_iff (declaration : Declaration) :
    declaration.isPrintable = true ↔ declaration.Prints := by
  simp only [isPrintable, isLegible, isGrouped, docs, Bool.and_eq_true, List.all_eq_true,
    List.forall_mem_append, List.forall_mem_flatMap]
  constructor
  · rintro ⟨⟨⟨⟨name, legible⟩, body⟩, grouped, strong⟩, ⟨doc, docs⟩, docs'⟩
    refine ⟨name, by simpa using doc, ?_, (Body.prints_iff _).2 ⟨body, strong, docs'⟩⟩
    exact fun p hp => ⟨⟨legible p hp, docs p hp⟩, grouped p hp⟩
  · rintro ⟨name, doc, params, body⟩
    rcases (Body.prints_iff _).1 body with ⟨legible, strong, docs⟩
    exact ⟨⟨⟨⟨name, fun p hp => (params p hp).1.legible⟩, legible⟩,
      fun p hp => (params p hp).2, strong⟩,
      ⟨by simpa using doc, fun p hp => (params p hp).1.docs⟩, docs⟩

/-- The type of a declaration that is printed can be said. -/
theorem Declaration.Prints.type {declaration : Declaration} (prints : declaration.Prints) :
    declaration.type.Said false := by
  rcases declaration with ⟨name, doc, params, body, isExported⟩
  have parts := prints.body
  cases body with
  | «alias» type => exact parts
  | «interface» bases members =>
      have object : (TypeExpr.object members).Said false := TypeExpr.said_object parts.2
      -- With bases, an interface becomes the intersection of these and its own members.
      cases bases with
      | nil => exact object
      | cons first others =>
          refine (TypeExpr.said_several (by simp) ?_).2
          refine List.forall_mem_append.2 ⟨fun t ht => (parts.1 t ht).1, ?_⟩
          exact List.forall_mem_singleton.2 object

/-! ## Rules -/

/-- Whether the names that a table introduces are names of types. -/
def TypeNames.areNames (types : TypeNames) : Bool :=
  [types.record, types.nestedRecord, types.definition, types.typeMetadata,
    types.attributesInRequest].all (Declaration.isReferenceName false)

namespace Generic

variable {types : TypeNames} {declaration : Declaration}

theorem said_definitionParam (named : Declaration.isReferenceName false types.definition = true) :
    (definitionParam types).Said ∧ (definitionParam types).isGrouped = true := by
  have bound := TypeExpr.said_named named
  have identifier := (parameterNames List.mem_cons_self).1
  refine ⟨⟨?_, nofun⟩, rfl⟩
  simp only [TypeParam.isLegible, definitionParam, identifier, Option.all_some, bound.legible,
    Bool.and_self]

theorem said_nestedParam : nestedParam.Said ∧ nestedParam.isGrouped = true := by
  have identifier := (parameterNames (List.mem_cons_of_mem definitionName List.mem_cons_self)).1
  refine ⟨⟨?_, nofun⟩, rfl⟩
  simp only [TypeParam.isLegible, nestedParam, identifier, Option.all_some, TypeExpr.isLegible,
    Bool.and_self]

theorem givesNames_recordName {newName : String}
    (named : Declaration.isReferenceName false newName = true) :
    TypeExpr.GivesNames (recordName types newName) := by
  intro below name type given
  unfold recordName at given
  split at given
  · cases given
    exact ⟨said_applied named, rfl⟩
  · cases given

theorem givesNames_metadataName
    (named : Declaration.isReferenceName false types.typeMetadata = true) :
    TypeExpr.GivesNames (metadataName types) := by
  intro below name type given
  unfold metadataName at given
  split at given
  · rename_i same
    cases given
    exact ⟨said_applied (same ▸ named), rfl⟩
  · cases given

theorem params_append (prints : declaration.Prints) {added : List TypeParam}
    (h : ∀ p ∈ added, p.Said ∧ p.isGrouped = true) :
    ∀ p ∈ declaration.params ++ added, p.Said ∧ p.isGrouped = true :=
  List.forall_mem_append.2 ⟨prints.params, h⟩

theorem prints_targetSchema (named : types.areNames = true) (prints : declaration.Prints) :
    (targetSchema types declaration).Prints := by
  simp only [TypeNames.areNames, List.all_cons, List.all_nil, Bool.and_eq_true] at named
  rcases named with ⟨record, nested, definition, -, -, -⟩
  refine ⟨prints.name, prints.doc, params_append prints ?_, ?_⟩
  · refine List.forall_mem_cons.2 ⟨said_definitionParam definition, ?_⟩
    exact List.forall_mem_singleton.2 said_nestedParam
  · have mode : (TypeExpr.named nestedName).Said false :=
      TypeExpr.said_named (parameterNames (List.mem_cons_of_mem _ List.mem_cons_self)).2
    refine TypeExpr.said_conditional mode ⟨rfl, nofun⟩ ?_ ?_
    · exact TypeExpr.said_mapNames (givesNames_recordName record) prints.type false
    · exact TypeExpr.said_mapNames (givesNames_recordName nested) prints.type false

theorem said_membersWithMetadata
    (named : Declaration.isReferenceName false types.typeMetadata = true) {members : List Member}
    (said : ∀ m ∈ members, m.Said) : ∀ m ∈ membersWithMetadata types members, m.Said := by
  rw [membersWithMetadata, Member.mapNamesAll_eq_map]
  refine List.forall_mem_map.2 ?_
  intro m hm
  refine TypeExpr.said_mapNames_member (said m hm) ?_ false
  exact fun t _ ht => TypeExpr.said_mapNames (givesNames_metadataName named) ht

theorem prints_basesWithMetadata
    (named : Declaration.isReferenceName false types.typeMetadata = true) {bases : List TypeExpr}
    (prints : ∀ t ∈ bases, t.Said false ∧ 4 ≤ t.strength) :
    ∀ t ∈ bases.map (withMetadata types), t.Said false ∧ 4 ≤ t.strength := by
  have names := givesNames_metadataName named
  refine List.forall_mem_map.2 ?_
  intro t ht
  rcases prints t ht with ⟨said, strong⟩
  refine ⟨TypeExpr.said_mapNames names said false, ?_⟩
  rwa [withMetadata, TypeExpr.strength_mapNames names]

theorem prints_relationships (named : types.areNames = true) (prints : declaration.Prints) :
    (relationships types declaration).Prints := by
  simp only [TypeNames.areNames, List.all_cons, List.all_nil, Bool.and_eq_true] at named
  rcases named with ⟨-, -, definition, metadata, -, -⟩
  refine ⟨prints.name, prints.doc, params_append prints ?_, ?_⟩
  · exact List.forall_mem_singleton.2 (said_definitionParam definition)
  · have parts := prints.body
    rcases declaration with ⟨name, doc, params, body, isExported⟩
    cases body with
    | «alias» type => exact TypeExpr.said_mapNames (givesNames_metadataName metadata) parts false
    | «interface» bases members =>
        exact ⟨prints_basesWithMetadata metadata parts.1, said_membersWithMetadata metadata parts.2⟩

theorem said_typeIdMember : typeIdMember.Said :=
  Member.said_property nofun (TypeExpr.said_access said_definitionRef nofun ⟨rfl, nofun⟩)

/-- Members are left out and added, so what is said of members holds of those of a request. -/
theorem said_requestMembers (metadata : Declaration.isReferenceName false types.typeMetadata = true)
    (attributes : Declaration.isReferenceName false types.attributesInRequest = true)
    {members : List Member} (said : ∀ m ∈ members, m.Said) :
    ∀ m ∈ requestMembers types members, m.Said := by
  have withMetadata := said_membersWithMetadata metadata said
  refine List.forall_mem_append.2 ⟨?_, List.forall_mem_singleton.2 said_typeIdMember⟩
  intro m hm
  have kept := (List.mem_filter.1 hm).1
  rw [typedMembers, Member.typeAttributesAll_eq_map] at kept
  rcases List.mem_map.1 kept with ⟨m, before, rfl⟩
  exact TypeExpr.said_typeAttributes_member attributes (withMetadata m before)
    fun t _ => TypeExpr.said_typeAttributes attributes

theorem prints_openRequest (metadata : Declaration.isReferenceName false types.typeMetadata = true)
    (attributes : Declaration.isReferenceName false types.attributesInRequest = true)
    {bases : List TypeExpr} {members : List Member} (saidBases : ∀ t ∈ bases, t.Said false)
    (said : ∀ m ∈ members, m.Said) : (openRequest types bases members).Prints := by
  have object : (TypeExpr.object (requestMembers types members)).Said false :=
    TypeExpr.said_object (said_requestMembers metadata attributes said)
  refine (TypeExpr.said_several (by simp) ?_).2
  refine List.forall_mem_append.2 ⟨saidBases, List.forall_mem_cons.2 ⟨object, ?_⟩⟩
  exact List.forall_mem_singleton.2 (said_applied attributes)

theorem prints_itemBody (metadata : Declaration.isReferenceName false types.typeMetadata = true)
    (attributes : Declaration.isReferenceName false types.attributesInRequest = true) {body : Body}
    (prints : body.Prints) : (itemBody types body).Prints := by
  have names := givesNames_metadataName metadata
  unfold itemBody
  split
  · -- An interface stays one, unless it takes any attribute.
    rename_i bases members
    have strong := prints_basesWithMetadata metadata prints.1
    dsimp only
    split
    · exact prints_openRequest metadata attributes (fun t ht => (strong t ht).1) prints.2
    · exact ⟨strong, said_requestMembers metadata attributes prints.2⟩
  · rename_i members
    have said : ∀ m ∈ members, m.Said := TypeExpr.Said.members prints
    split
    · exact prints_openRequest metadata attributes nofun said
    · exact TypeExpr.said_object (said_requestMembers metadata attributes said)
  · rename_i type _
    have renamed := TypeExpr.said_mapNames names prints false
    have typed := TypeExpr.said_typeAttributes attributes renamed
    have typeId : (TypeExpr.object [typeIdMember]).Said false :=
      TypeExpr.said_object (List.forall_mem_singleton.2 said_typeIdMember)
    refine (TypeExpr.said_several (by simp) ?_).2
    exact List.forall_mem_cons.2 ⟨typed, List.forall_mem_singleton.2 typeId⟩

theorem prints_itemSchema (named : types.areNames = true) (prints : declaration.Prints) :
    (itemSchema types declaration).Prints := by
  simp only [TypeNames.areNames, List.all_cons, List.all_nil, Bool.and_eq_true] at named
  rcases named with ⟨-, -, definition, metadata, attributes, -⟩
  refine ⟨prints.name, prints.doc, params_append prints ?_, ?_⟩
  · exact List.forall_mem_singleton.2 (said_definitionParam definition)
  · exact prints_itemBody metadata attributes prints.body

end Generic

namespace RuleTable

theorem prints_applyTo? {table : RuleTable} (named : table.types.areNames = true)
    (targets : ∀ name newName, table.rule? name = some (.rename newName) →
      Lexer.isIdentifier newName.toList = true)
    {declaration made : Declaration} (prints : declaration.Prints)
    (h : table.applyTo? declaration = some made) : made.Prints := by
  unfold applyTo? at h
  split at h
  · rename_i rule found
    cases rule with
    | drop => cases h
    | rename newName =>
        cases h
        exact ⟨targets _ _ found, prints.doc, prints.params, prints.body⟩
    | targetSchema =>
        cases h
        exact Generic.prints_targetSchema named prints
    | itemSchema =>
        cases h
        exact Generic.prints_itemSchema named prints
    | relationships =>
        cases h
        exact Generic.prints_relationships named prints
  · cases h
    exact prints

/-- What a table makes of printable declarations is printable. -/
theorem isPrintable_of_mem_applyAll {table : RuleTable} {declarations : List Declaration}
    (named : table.types.areNames = true)
    (targets : ∀ name newName, table.rule? name = some (.rename newName) →
      Lexer.isIdentifier newName.toList = true)
    (printable : ∀ d ∈ declarations, d.isPrintable = true) :
    ∀ d ∈ table.applyAll declarations, d.isPrintable = true := by
  intro made hm
  rcases List.mem_filterMap.1 hm with ⟨declaration, hd, given⟩
  have prints := (Declaration.isPrintable_iff declaration).1 (printable declaration hd)
  exact (Declaration.isPrintable_iff made).2 (prints_applyTo? named targets prints given)

/-- Rewritten declarations are read back from their text, each as it was meant. -/
theorem parse_print_applyAll {table : RuleTable} {declarations : List Declaration}
    (named : table.types.areNames = true)
    (targets : ∀ name newName, table.rule? name = some (.rename newName) →
      Lexer.isIdentifier newName.toList = true)
    (printable : ∀ d ∈ declarations, d.isPrintable = true) :
    Declaration.parse (Declaration.print (table.applyAll declarations)) =
      .ok (table.applyAll declarations) := by
  have parts := fun d hd =>
    Declaration.parts_of_isPrintable (isPrintable_of_mem_applyAll named targets printable d hd)
  exact Declaration.parse_print_of_docs (fun d hd => (parts d hd).1) (fun d hd => (parts d hd).2.1)
    fun d hd => (parts d hd).2.2

/-- A table with one rule of each kind. -/
def sampleTable : RuleTable where
  types := .standard
  rules := [("ItemAttributes", .drop), ("Item", .rename "ItemShell"),
    ("ItemSelfSchema", .targetSchema), ("ItemCreateSchema", .itemSchema),
    ("ItemRelationships", .relationships)]

/-- A file that each rule of the table applies to. -/
def sampleBatch : List Declaration :=
  [{ name := "ItemAttributes", doc := none, params := [], body := .alias (.object []), isExported := true },
   { name := "Item", doc := some "A record.", params := [], isExported := true
     body := .interface [.named "Base"] [.property "id" (.keyword .string) false true none] },
   { name := "ItemSelfSchema", doc := none, params := [], isExported := true
     body := .interface [.named "Envelope"] [.property "data" (.array (.named "Item")) false false none] },
   { name := "ItemCreateSchema", doc := none, params := [], isExported := true
     body := .interface []
       [.property "type" (.named "ItemTypeData") false false none,
        .property "attributes" (.object [.index "key" (.keyword .string) (.keyword .unknown) false none])
          true false (some "Any."),
        .index "key" (.keyword .string) (.keyword .unknown) false none] },
   { name := "ItemRelationships", doc := none, params := [], isExported := false
     body := .interface [.named "ItemTypeData"] [.property "type" (.named "ItemTypeData") false false none] }]

theorem parse_print_applyAll_sampleBatch :
    (sampleTable.types.areNames = true ∧
      (∀ name newName, sampleTable.rule? name = some (.rename newName) →
        Lexer.isIdentifier newName.toList = true) ∧
      ∀ d ∈ sampleBatch, d.isPrintable = true) ∧
    Declaration.parse (Declaration.print (sampleTable.applyAll sampleBatch)) =
      .ok (sampleTable.applyAll sampleBatch) := by
  have named : sampleTable.types.areNames = true := by decide +kernel
  have targets : ∀ name newName, sampleTable.rule? name = some (.rename newName) →
      Lexer.isIdentifier newName.toList = true := by
    have all : (sampleTable.rules.all fun entry => match entry.2 with
        | .rename newName => Lexer.isIdentifier newName.toList
        | _ => true) = true := by decide +kernel
    intro name newName h
    exact List.all_eq_true.1 all _ (Entries.mem_of_get? h)
  have printable : ∀ d ∈ sampleBatch, d.isPrintable = true := by
    have all : (sampleBatch.all Declaration.isPrintable) = true := by decide +kernel
    exact List.all_eq_true.1 all
  exact ⟨⟨named, targets, printable⟩, parse_print_applyAll named targets printable⟩

end RuleTable

end HyperSchema
