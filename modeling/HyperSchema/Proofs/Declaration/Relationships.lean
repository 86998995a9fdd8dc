import HyperSchema.Proofs.Declaration.References

/-!
# Relationships — metadata made generic, and nothing else

A block of relationships keeps its form.  Each reference to the metadata of a record type gets the
definition as its argument, and the block gets the parameter that the argument refers to.  This file
defines:

* `TypeExpr.unapplied`, which takes the argument away again, and its laws;
* `TypeExpr.Mentions` and `Declaration.Mentions`, a type somewhere inside;
* `Generic.unapplied_mapNames`: what is made generic comes back without the argument;
* `Generic.IsBlock`, the generic form of a block, place by place.

The main statement is `RuleTable.applyAll_relationships`.
-/

namespace HyperSchema

open Declaration (Step Place)

/-! ## Taking the argument away -/

/-- The arguments are the definition parameter alone. -/
def Generic.isDefinition : List TypeExpr → Bool
  | [.reference name []] => name == definitionName
  | _ => false

theorem Generic.isDefinition_iff {args : List TypeExpr} :
    isDefinition args = true ↔ args = [definitionRef] := by
  unfold isDefinition
  split
  · simp [definitionRef, TypeExpr.named]
  · rename_i other
    refine ⟨fun h => (Bool.false_ne_true h).elim, ?_⟩
    rintro rfl
    exact (other definitionName rfl).elim

mutual

/-- The type with a bare name in the place of each application of that name to the definition
parameter. -/
def TypeExpr.unapplied (name : String) : TypeExpr → TypeExpr
  | .reference head args =>
      if head == name && Generic.isDefinition args then .named head
      else .reference head (TypeExpr.unappliedAll name args)
  | .array element => .array (element.unapplied name)
  | .rest element => .rest (element.unapplied name)
  | .keyOf operand => .keyOf (operand.unapplied name)
  | .tuple items => .tuple (TypeExpr.unappliedAll name items)
  | .union alternatives => .union (TypeExpr.unappliedAll name alternatives)
  | .intersection parts => .intersection (TypeExpr.unappliedAll name parts)
  | .object members => .object (Member.unappliedAll name members)
  | .conditional check bound whenTrue whenFalse =>
      .conditional (check.unapplied name) (bound.unapplied name) (whenTrue.unapplied name)
        (whenFalse.unapplied name)
  | .access object index => .access (object.unapplied name) (index.unapplied name)
  | type => type

def TypeExpr.unappliedAll (name : String) : List TypeExpr → List TypeExpr
  | [] => []
  | type :: rest => type.unapplied name :: TypeExpr.unappliedAll name rest

/-- The member with bare names in all its types, those of keys included. -/
def Member.unapplied (name : String) : Member → Member
  | .property key type isOptional isReadonly doc =>
      .property key (type.unapplied name) isOptional isReadonly doc
  | .index key keyType value isReadonly doc =>
      .index key (keyType.unapplied name) (value.unapplied name) isReadonly doc

def Member.unappliedAll (name : String) : List Member → List Member
  | [] => []
  | member :: rest => member.unapplied name :: Member.unappliedAll name rest

end

def TypeParam.unapplied (name : String) (param : TypeParam) : TypeParam :=
  { param with
    bound := param.bound.map (TypeExpr.unapplied name)
    default := param.default.map (TypeExpr.unapplied name) }

def Body.unapplied (name : String) : Body → Body
  | .interface bases members =>
      .interface (bases.map (TypeExpr.unapplied name)) (members.map (Member.unapplied name))
  | .alias type => .alias (type.unapplied name)

/-- The declaration with a bare name in the place of each application of that name to the definition
parameter. -/
def Declaration.unapplied (name : String) (declaration : Declaration) : Declaration :=
  { declaration with
    params := declaration.params.map (TypeParam.unapplied name)
    body := declaration.body.unapplied name }

section Lists

variable (name : String)

theorem TypeExpr.unappliedAll_eq_map (types : List TypeExpr) :
    TypeExpr.unappliedAll name types = types.map (TypeExpr.unapplied name) := by
  induction types with
  | nil => rfl
  | cons type others ih => rw [TypeExpr.unappliedAll, ih, List.map_cons]

theorem Member.unappliedAll_eq_map (members : List Member) :
    Member.unappliedAll name members = members.map (Member.unapplied name) := by
  induction members with
  | nil => rfl
  | cons member others ih => rw [Member.unappliedAll, ih, List.map_cons]

theorem Member.parts_unapplied (m : Member) :
    (m.unapplied name).parts = m.parts.map fun part => (part.1, part.2.unapplied name) := by
  cases m <;> rfl

theorem Member.outline_unapplied (m : Member) : (m.unapplied name).outline = m.outline := by
  cases m <;> rfl

end Lists

namespace TypeExpr

variable {t s : TypeExpr} {name : String}

theorem unapplied_reference {head : String} {args : List TypeExpr}
    (other : reference head args ≠ Generic.applied name) :
    (reference head args).unapplied name = reference head (args.map (unapplied name)) := by
  rw [unapplied, if_neg, unappliedAll_eq_map]
  rw [Bool.and_eq_true, beq_iff_eq, Generic.isDefinition_iff]
  rintro ⟨rfl, rfl⟩
  exact other rfl

theorem unapplied_applied : (Generic.applied name).unapplied name = named name := by
  rw [Generic.applied, unapplied, if_pos]
  rw [Bool.and_eq_true, beq_iff_eq, Generic.isDefinition_iff]
  exact ⟨rfl, rfl⟩

theorem parts_unapplied (other : t ≠ Generic.applied name) :
    (t.unapplied name).parts = t.parts.map fun part => (part.1, part.2.unapplied name) := by
  cases t with
  | reference head args =>
      simp only [unapplied_reference other, parts, List.map_map]
      rfl
  | object members =>
      simp only [unapplied, Member.unappliedAll_eq_map, parts, List.flatMap_map, List.map_flatMap,
        Member.parts_unapplied]
  | tuple items | union items | intersection items =>
      simp only [unapplied, unappliedAll_eq_map, parts, List.map_map]
      rfl
  | _ => rfl

theorem outline_unapplied (other : t ≠ Generic.applied name) :
    (t.unapplied name).outline = t.outline := by
  cases t with
  | reference head args =>
      simp only [unapplied_reference other, outline, List.map_map]
      rfl
  | object members =>
      simp only [unapplied, Member.unappliedAll_eq_map, outline, List.map_map, Function.comp_def,
        Member.outline_unapplied]
  | tuple items | union items | intersection items =>
      simp only [unapplied, unappliedAll_eq_map, outline, List.map_map]
      rfl
  | _ => rfl

/-! ## Types somewhere inside -/

/-- A type has another one at some place. -/
def Mentions (t s : TypeExpr) : Prop :=
  ∃ place, t.Shows place s

theorem mentions_iff : t.Mentions s ↔ t = s ∨ ∃ part ∈ t.parts, part.2.Mentions s := by
  constructor
  · rintro ⟨place, shown⟩
    cases shown with
    | whole => exact .inl rfl
    | inside found shown => exact .inr ⟨_, List.mem_of_getElem? found, _, shown⟩
  · rintro (rfl | ⟨part, mem, place, shown⟩)
    · exact ⟨[], .whole t⟩
    · rcases List.mem_iff_getElem?.1 mem with ⟨i, found⟩
      exact ⟨(i, part.1) :: place, .inside found shown⟩

theorem not_mentions_of_parts (other : t ≠ s) (parts : ∀ part ∈ t.parts, ¬ part.2.Mentions s) :
    ¬ t.Mentions s := by
  rw [mentions_iff]
  rintro (same | ⟨part, mem, mentions⟩)
  · exact other same
  · exact parts part mem mentions

/-- Where nothing is applied, nothing changes. -/
theorem unapplied_eq_self (none : ¬ t.Mentions (Generic.applied name)) : t.unapplied name = t := by
  induction t using partsInduct with
  | whole t ih =>
      rw [mentions_iff, not_or, not_exists] at none
      refine eq_of_outline (outline_unapplied none.1) ?_
      rw [parts_unapplied none.1]
      have each : ∀ part ∈ t.parts, (part.1, part.2.unapplied name) = part :=
        fun part mem => Prod.ext rfl (ih part mem fun h => none.2 part ⟨mem, h⟩)
      exact (List.map_congr_left each).trans (List.map_id' _)

end TypeExpr

/-! ## Metadata -/

namespace Generic

variable {types : TypeNames} {t s part : TypeExpr} {place : Place} {below : Bool}

/-- A reference to the metadata of a record type without arguments, outside the keys of index
signatures. -/
def IsOpenMetadata (types : TypeNames) (place : Place) (part : TypeExpr) : Prop :=
  part = .named types.typeMetadata ∧ ¬ place.Passes .key

/-- All metadata becomes the same type. -/
theorem eq_applied_of_mem_metadataName (below : Bool) (name : String) :
    ∀ type ∈ metadataName types below name, type = applied types.typeMetadata := by
  intro type given
  unfold metadataName at given
  split at given
  · rename_i isMetadata
    rw [← isMetadata]
    exact (Option.some.inj given).symm
  · cases given

/-- A reference becomes a reference with the same name. -/
theorem exists_mapNames_reference (types : TypeNames) (below : Bool) (name : String)
    (args : List TypeExpr) : ∃ args', (TypeExpr.reference name args).mapNames (metadataName types)
      below = .reference name args' := by
  cases args with
  | nil =>
      rw [TypeExpr.mapNames, metadataName]
      split
      · exact ⟨[definitionRef], rfl⟩
      · exact ⟨[], rfl⟩
  | cons arg args => exact ⟨_, rfl⟩

theorem isSome_metadataName_iff {name : String} :
    (metadataName types below name).isSome ↔ name = types.typeMetadata := by
  simp [metadataName]

theorem isOpenName_metadataName_iff :
    TypeExpr.IsOpenName (metadataName types) below place part ↔
      IsOpenMetadata types place part := by
  simp only [TypeExpr.IsOpenName, isSome_metadataName_iff]
  constructor
  · rintro ⟨name, rfl, unkeyed, rfl⟩
    exact ⟨rfl, unkeyed⟩
  · rintro ⟨rfl, unkeyed⟩
    exact ⟨_, rfl, unkeyed, rfl⟩

/-- With its metadata made generic, a type has generic metadata in the open places. -/
theorem replaces_withMetadata :
    (withMetadata types t).Replaces t (IsOpenMetadata types) (applied types.typeMetadata) :=
  (TypeExpr.replaces_mapNames eq_applied_of_mem_metadataName).congr
    fun _ _ => isOpenName_metadataName_iff

theorem stays_metadataName (other : t ≠ .named types.typeMetadata) :
    t.Stays (metadataName types) below := by
  rintro name rfl
  rw [metadataName, if_neg]
  rintro rfl
  exact other rfl

/-! ### What is made generic comes back -/

/-- Nothing else becomes the definition parameter. -/
theorem eq_definitionRef_of_mapNames
    (same : s.mapNames (metadataName types) below = definitionRef) : s = definitionRef := by
  by_cases bare : s = .named types.typeMetadata
  · -- Metadata gets an argument, and the definition parameter has none.
    rw [bare, TypeExpr.named, TypeExpr.mapNames, metadataName, if_pos rfl] at same
    simp [applied, definitionRef, TypeExpr.named] at same
  · have stays : s.Stays (metadataName types) below := stays_metadataName bare
    refine TypeExpr.eq_of_outline ?_ ?_
    · rw [← same, TypeExpr.outline_mapNames stays]
    · have parts := TypeExpr.parts_mapNames stays
      rw [same] at parts
      exact (List.map_eq_nil_iff.1 parts.symm).trans rfl

/-- Nothing but metadata becomes generic metadata. -/
theorem mapNames_ne_applied (bare : t ≠ .named types.typeMetadata)
    (other : t ≠ applied types.typeMetadata) :
    t.mapNames (metadataName types) below ≠ applied types.typeMetadata := by
  intro same
  cases t with
  | reference head args =>
      cases args with
      | nil =>
          rw [TypeExpr.mapNames, stays_metadataName bare head rfl] at same
          simp [applied] at same
      | cons arg others =>
          rw [TypeExpr.mapNames, TypeExpr.mapNamesAll_eq_map] at same
          injection same with head args
          rw [List.map_cons, List.cons.injEq, List.map_eq_nil_iff] at args
          rw [head, args.2, eq_definitionRef_of_mapNames args.1] at other
          exact other rfl
  | _ => cases same

/-- Generic metadata becomes bare again, and nothing else was touched. -/
theorem unapplied_mapNames (none : ¬ t.Mentions (applied types.typeMetadata)) :
    (t.mapNames (metadataName types) below).unapplied types.typeMetadata = t := by
  induction t using TypeExpr.partsInduct generalizing below with
  | whole t ih =>
      rw [TypeExpr.mentions_iff, not_or, not_exists] at none
      by_cases bare : t = .named types.typeMetadata
      · rw [bare, TypeExpr.named, TypeExpr.mapNames, metadataName, if_pos rfl]
        exact TypeExpr.unapplied_applied
      · have stays : t.Stays (metadataName types) below := stays_metadataName bare
        have other : t.mapNames (metadataName types) below ≠ applied types.typeMetadata :=
          mapNames_ne_applied bare none.1
        refine TypeExpr.eq_of_outline ?_ ?_
        · rw [TypeExpr.outline_unapplied other, TypeExpr.outline_mapNames stays]
        · rw [TypeExpr.parts_unapplied other, TypeExpr.parts_mapNames stays, List.map_map]
          have each : ∀ part ∈ t.parts,
              (part.1, (part.1.mapNames (metadataName types) below part.2).unapplied
                types.typeMetadata) = part := by
            intro part mem
            have absent : ¬ part.2.Mentions (applied types.typeMetadata) :=
              fun h => none.2 part ⟨mem, h⟩
            refine Prod.ext rfl ?_
            by_cases key : part.1 = .key
            · -- Nothing was made generic here, and there is nothing to take away.
              rw [key]
              exact TypeExpr.unapplied_eq_self absent
            · rw [Step.mapNames_of_ne_key key]
              exact ih part mem absent
          exact (List.map_congr_left each).trans (List.map_id' _)

end Generic

/-! ## Declarations -/

/-- A declaration has a type somewhere inside, in its parameters or in its body. -/
def Declaration.Mentions (declaration : Declaration) (s : TypeExpr) : Prop :=
  ∃ t ∈ declaration.types, t.Mentions s

/-- Two bodies are of one form: interfaces with as many bases and with members of the same outlines,
or names for types. -/
def Body.SameForm : Body → Body → Prop
  | .interface bases members, .interface bases' members' =>
      bases.length = bases'.length ∧ members.map Member.outline = members'.map Member.outline
  | .alias _, .alias _ => True
  | _, _ => False

theorem TypeParam.unapplied_eq_self {name : String} {param : TypeParam}
    (none : ∀ t ∈ param.types, ¬ t.Mentions (Generic.applied name)) :
    param.unapplied name = param := by
  have each : ∀ type? : Option TypeExpr,
      (∀ t ∈ type?.toList, ¬ t.Mentions (Generic.applied name)) →
        type?.map (TypeExpr.unapplied name) = type? := by
    intro type? none
    cases type? with
    | none => rfl
    | some type => rw [Option.map_some, TypeExpr.unapplied_eq_self (none type (by simp))]
  rw [types, List.forall_mem_append] at none
  rw [unapplied, each _ none.1, each _ none.2]

namespace Generic

variable {types : TypeNames}

/-- A declaration is the generic form of a block of relationships: metadata became generic, a
parameter was added, and all else is as it was. -/
structure IsBlock (types : TypeNames) (declaration made : Declaration) : Prop where
  name : made.name = declaration.name
  doc : made.doc = declaration.doc
  isExported : made.isExported = declaration.isExported
  params : made.params = declaration.params ++
    [⟨"D", some (.named types.definition), some (.named types.definition)⟩]
  form : declaration.body.SameForm made.body
  type : made.type.Replaces declaration.type (IsOpenMetadata types)
    (.reference types.typeMetadata [.named "D"])
  restored : ¬ declaration.Mentions (.reference types.typeMetadata [.named "D"]) →
    ({ made with params := made.params.dropLast } : Declaration).unapplied types.typeMetadata =
      declaration

theorem sameForm_relationships (declaration : Declaration) :
    declaration.body.SameForm (relationships types declaration).body := by
  rcases declaration with ⟨name, doc, params, body, isExported⟩
  cases body with
  | «alias» type => trivial
  | «interface» bases members =>
      refine ⟨by simp, ?_⟩
      rw [membersWithMetadata, Member.mapNamesAll_eq_map, List.map_map]
      exact List.map_congr_left fun m _ => m.outline_mapNames.symm

/-- An interface and a name for a type are treated alike. -/
theorem type_relationships (declaration : Declaration) :
    (relationships types declaration).type = withMetadata types declaration.type := by
  rcases declaration with ⟨name, doc, params, body, isExported⟩
  cases body with
  | «alias» type => rfl
  | «interface» bases members =>
      cases bases with
      | nil => rfl
      | cons first others =>
          simp only [relationships, Declaration.type, withMetadata, TypeExpr.mapNames,
            TypeExpr.mapNamesAll_eq_map, List.map_append, List.map_cons]
          rfl

theorem unapplied_relationships {declaration : Declaration}
    (none : ¬ declaration.Mentions (applied types.typeMetadata)) :
    ({ relationships types declaration with params := declaration.params } : Declaration).unapplied
      types.typeMetadata = declaration := by
  rcases declaration with ⟨name, doc, params, body, isExported⟩
  simp only [Declaration.Mentions, Declaration.types, not_exists, not_and, List.forall_mem_append,
    List.forall_mem_flatMap] at none
  rcases none with ⟨inParams, inBody⟩
  have sameParams : params.map (TypeParam.unapplied types.typeMetadata) = params :=
    (List.map_congr_left fun p mem => TypeParam.unapplied_eq_self (inParams p mem)).trans
      (List.map_id' params)
  cases body with
  | «alias» type =>
      have same : (withMetadata types type).unapplied types.typeMetadata = type :=
        unapplied_mapNames (inBody type (by simp [Body.types, Body.own]))
      simp only [relationships, Declaration.unapplied, Body.unapplied, sameParams, same]
  | «interface» bases members =>
      have sameBases :
          (bases.map (withMetadata types)).map (TypeExpr.unapplied types.typeMetadata) = bases := by
        rw [List.map_map]
        refine (List.map_congr_left fun t mem => ?_).trans (List.map_id' bases)
        exact unapplied_mapNames (inBody t (by simp [Body.types, Body.bases, mem]))
      -- The members of an interface are those of an object type.
      have same : (withMetadata types (.object members)).unapplied types.typeMetadata =
          .object members :=
        unapplied_mapNames (inBody _ (by simp [Body.types, Body.own]))
      rw [withMetadata, TypeExpr.mapNames, TypeExpr.unapplied, Member.unappliedAll_eq_map] at same
      injection same with sameMembers
      simp only [relationships, Declaration.unapplied, Body.unapplied, membersWithMetadata,
        sameParams, sameBases, sameMembers]

theorem isBlock_relationships (types : TypeNames) (declaration : Declaration) :
    IsBlock types declaration (relationships types declaration) where
  name := rfl
  doc := rfl
  isExported := rfl
  params := rfl
  form := sameForm_relationships declaration
  type := by
    rw [type_relationships]
    exact replaces_withMetadata
  restored := by
    intro none
    have dropped : (relationships types declaration).params.dropLast = declaration.params :=
      List.dropLast_concat
    rw [dropped]
    exact unapplied_relationships none

end Generic

namespace RuleTable

/-- A declaration that is listed as a block of relationships gets generic metadata and a parameter,
and is otherwise as it was. -/
theorem applyAll_relationships {set : RuleSet} {table : RuleTable} (built : ofSet set = .ok table)
    {declaration : Declaration} (listed : declaration.name ∈ set.relationships)
    (before after : List Declaration) :
    ∃ made, Generic.IsBlock set.types declaration made ∧
      table.applyAll (before ++ declaration :: after) =
        table.applyAll before ++ made :: table.applyAll after := by
  refine ⟨_, Generic.isBlock_relationships set.types declaration, ?_⟩
  exact applyAll_of_lists built .relationships listed rfl before after

/-- A block with metadata in a bound, among the bases, in arguments, below `included` and in an
index signature. -/
def itemRelationships : Declaration where
  name := "ItemRelationships"
  doc := some "To other records."
  params := [⟨"T", some (.named "ItemTypeData"), none⟩]
  body := .interface [.reference "Links" [.named "ItemTypeData"]]
    [.property "item_type" (.object [.property "data" (.named "ItemTypeData") false false none])
        false true (some "Its type."),
      .property "included" (.array (.named "ItemTypeData")) true false none,
      .index "key" (.named "ItemTypeData") (.named "ItemTypeData") false none]
  isExported := true

theorem not_mentions_itemRelationships :
    ¬ itemRelationships.Mentions (Generic.applied "ItemTypeData") := by
  have bare : ¬ (TypeExpr.named "ItemTypeData").Mentions (Generic.applied "ItemTypeData") :=
    TypeExpr.not_mentions_of_parts (by simp [TypeExpr.named, Generic.applied])
      (by simp [TypeExpr.named, TypeExpr.parts])
  have array : ¬ (TypeExpr.array (.named "ItemTypeData")).Mentions (Generic.applied "ItemTypeData") :=
    TypeExpr.not_mentions_of_parts (by simp [Generic.applied])
      (by simpa [TypeExpr.parts] using bare)
  have data : ¬ (TypeExpr.object [.property "data" (.named "ItemTypeData") false false none]).Mentions
      (Generic.applied "ItemTypeData") :=
    TypeExpr.not_mentions_of_parts (by simp [Generic.applied])
      (by simpa [TypeExpr.parts, Member.parts] using bare)
  have members : ¬ (TypeExpr.object itemRelationships.members).Mentions
      (Generic.applied "ItemTypeData") := by
    refine TypeExpr.not_mentions_of_parts (by simp [Generic.applied]) ?_
    simpa [itemRelationships, Declaration.members, TypeExpr.parts, Member.parts] using
      ⟨data, array, bare⟩
  have base : ¬ (TypeExpr.reference "Links" [.named "ItemTypeData"]).Mentions
      (Generic.applied "ItemTypeData") :=
    TypeExpr.not_mentions_of_parts (by simp [Generic.applied]) (by simpa [TypeExpr.parts] using bare)
  rintro ⟨t, mem, mentions⟩
  have cases : t = .named "ItemTypeData" ∨ t = .reference "Links" [.named "ItemTypeData"] ∨
      t = .object itemRelationships.members := by
    simpa [itemRelationships, Declaration.types, TypeParam.types, Body.types, Body.bases, Body.own,
      Declaration.members] using mem
  rcases cases with rfl | rfl | rfl
  · exact bare mentions
  · exact base mentions
  · exact members mentions

theorem applyAll_relationships_itemRelationships :
    (ofSet .standard = .ok standard ∧ itemRelationships.name ∈ RuleSet.standard.relationships ∧
      ¬ itemRelationships.Mentions (.reference "ItemTypeData" [.named "D"])) ∧
      ∃ made, Generic.IsBlock .standard itemRelationships made ∧
        standard.applyAll ([] ++ itemRelationships :: []) =
          standard.applyAll [] ++ made :: standard.applyAll [] := by
  have listed : itemRelationships.name ∈ RuleSet.standard.relationships := by decide
  exact ⟨⟨ofSet_standard, listed, not_mentions_itemRelationships⟩,
    applyAll_relationships ofSet_standard listed [] []⟩

end RuleTable

end HyperSchema
