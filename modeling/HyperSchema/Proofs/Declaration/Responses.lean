import HyperSchema.Proofs.Declaration.References

/-!
# Responses — plain and nested records

The schema of a response becomes a choice between two forms of the declared type.  They differ from
it, and from each other, at the references to the record alone.  This file defines:

* `Generic.IsOpenRecord`, the references that change: those without arguments that stand neither
  below a property `included` nor in the keys of an index signature;
* `Generic.IsResponse`, the generic form of the schema of a response, place by place.

The main statement is `RuleTable.applyAll_response`; `Generic.argument_of_record_changes` shows
that references inside the arguments of a record are among those that change.
-/

namespace HyperSchema

open Declaration (Step Place)

namespace Generic

/-- A reference to the record without arguments, neither below a property `included` nor in the keys
of an index signature. -/
def IsOpenRecord (types : TypeNames) (place : Place) (part : TypeExpr) : Prop :=
  part = .named types.record ∧ ¬ place.Passes (.property "included") ∧ ¬ place.Passes .key

/-- A declaration is the generic form of the schema of a response: a choice between the declared
type with records and the declared type with nested records. -/
structure IsResponse (types : TypeNames) (declaration made : Declaration) : Prop where
  name : made.name = declaration.name
  doc : made.doc = declaration.doc
  isExported : made.isExported = declaration.isExported
  params : made.params = declaration.params ++
    [⟨"D", some (.named types.definition), some (.named types.definition)⟩,
      ⟨"NestedMode", some (.keyword .boolean), some (.boolean false)⟩]
  body : ∃ plain nested,
    made.body = .alias (.conditional (.named "NestedMode") (.boolean false) plain nested) ∧
    plain.Replaces declaration.type (IsOpenRecord types)
      (.reference types.record [.named "D"]) ∧
    nested.Replaces declaration.type (IsOpenRecord types)
      (.reference types.nestedRecord [.named "D"]) ∧
    ∀ place part, declaration.type.Shows place part →
      place.Passes (.property "included") ∨ place.Passes .key →
        plain.Shows place part ∧ nested.Shows place part

variable {types : TypeNames} {newName : String} {t part : TypeExpr} {place : Place}

/-- Every record becomes the same type. -/
theorem eq_applied_of_mem_recordName (below : Bool) (name : String) :
    ∀ type ∈ recordName types newName below name, type = applied newName := by
  intro type given
  unfold recordName at given
  split at given
  · exact (Option.some.inj given).symm
  · cases given

theorem isSome_recordName_iff {below : Bool} {name : String} :
    (recordName types newName below name).isSome ↔ name = types.record ∧ below = false := by
  simp [recordName]

theorem isOpenName_recordName_iff :
    TypeExpr.IsOpenName (recordName types newName) false place part ↔
      IsOpenRecord types place part := by
  simp only [TypeExpr.IsOpenName, isSome_recordName_iff, Bool.false_or, decide_eq_false_iff_not]
  constructor
  · rintro ⟨name, rfl, unkeyed, rfl, above⟩
    exact ⟨rfl, above, unkeyed⟩
  · rintro ⟨rfl, above, unkeyed⟩
    exact ⟨_, rfl, unkeyed, rfl, above⟩

/-- With its records made generic, a type has generic records in the open places. -/
theorem replaces_withRecord :
    (withRecord types newName t).Replaces t (IsOpenRecord types) (applied newName) :=
  (TypeExpr.replaces_mapNames eq_applied_of_mem_recordName).congr
    fun _ _ => isOpenName_recordName_iff

/-- Below `included` and in the keys of index signatures, records stay plain. -/
theorem shows_withRecord (shown : t.Shows place part)
    (kept : place.Passes (.property "included") ∨ place.Passes .key) :
    (withRecord types newName t).Shows place part := by
  by_cases keyed : place.Passes .key
  · exact TypeExpr.shows_mapNames_of_key shown keyed
  · have isBelow : place.Passes (.property includedKey) := kept.resolve_right keyed
    have nothing : ∀ name, recordName types newName true name = none := by simp [recordName]
    have inside : (withRecord types newName t).Shows place
        (part.mapNames (recordName types newName)
          (false || decide (place.Passes (.property includedKey)))) :=
      TypeExpr.shows_mapNames shown keyed
    rwa [decide_eq_true isBelow, Bool.or_true,
      TypeExpr.mapNames_eq_self eq_applied_of_mem_recordName nothing] at inside

theorem isResponse_targetSchema (types : TypeNames) (declaration : Declaration) :
    IsResponse types declaration (targetSchema types declaration) where
  name := rfl
  doc := rfl
  isExported := rfl
  params := rfl
  body := ⟨_, _, rfl, replaces_withRecord, replaces_withRecord,
    fun _ _ shown kept => ⟨shows_withRecord shown kept, shows_withRecord shown kept⟩⟩

/-- A response whose data is a record applied to a record. -/
def recordOfRecord : Declaration where
  name := "ItemSelfTargetSchema"
  doc := none
  params := []
  body := .interface [] [.property "data" (.reference "Item" [.named "Item"]) false false none]
  isExported := true

/-- Inside the arguments of a record, a reference to the record changes in both forms. -/
theorem argument_of_record_changes :
    recordOfRecord.type.Shows [(0, .property "data")] (.reference "Item" [.named "Item"]) ∧
    recordOfRecord.type.Shows [(0, .property "data"), (0, .argument)] (.named "Item") ∧
    ∃ made plain nested, RuleTable.standard.applyAll [recordOfRecord] = [made] ∧
      made.body = .alias (.conditional (.named "NestedMode") (.boolean false) plain nested) ∧
      ¬ plain.Shows [(0, .property "data"), (0, .argument)] (.named "Item") ∧
      ¬ nested.Shows [(0, .property "data"), (0, .argument)] (.named "Item") := by
  refine ⟨.inside rfl (.whole _), .inside rfl (.inside rfl (.whole _)), _, _, _, rfl, rfl, ?_, ?_⟩
  · intro shown
    have same : TypeExpr.named "Item" = applied "Item" :=
      shown.unique (.inside rfl (.inside rfl (.whole _)))
    simp [TypeExpr.named, applied] at same
  · intro shown
    have same : TypeExpr.named "Item" = applied "ItemInNestedResponse" :=
      shown.unique (.inside rfl (.inside rfl (.whole _)))
    simp [TypeExpr.named, applied] at same

end Generic

namespace RuleTable

/-- A declaration that is listed as the schema of a response becomes generic, place by place. -/
theorem applyAll_response {set : RuleSet} {table : RuleTable} (built : ofSet set = .ok table)
    {declaration : Declaration} (listed : declaration.name ∈ set.targetSchemas)
    (before after : List Declaration) :
    ∃ made, Generic.IsResponse set.types declaration made ∧
      table.applyAll (before ++ declaration :: after) =
        table.applyAll before ++ made :: table.applyAll after := by
  refine ⟨_, Generic.isResponse_targetSchema set.types declaration, ?_⟩
  exact applyAll_of_lists built .targetSchema listed rfl before after

/-- A response with records among its bases, in arrays, below `included` and in an index
signature. -/
def selfSchema : Declaration where
  name := "ItemSelfTargetSchema"
  doc := some "One record."
  params := [⟨"T", none, none⟩]
  body := .interface [.reference "Envelope" [.named "Item"]]
    [.property "data" (.array (.named "Item")) false true none,
      .property "included" (.object [.property "data" (.named "Item") false false none])
        true false none,
      .index "key" (.named "Item") (.named "Item") false none]
  isExported := true

theorem applyAll_response_selfSchema :
    ofSet .standard = .ok standard ∧ selfSchema.name ∈ RuleSet.standard.targetSchemas ∧
      ∃ made, Generic.IsResponse .standard selfSchema made ∧
        standard.applyAll ([] ++ selfSchema :: []) =
          standard.applyAll [] ++ made :: standard.applyAll [] := by
  have listed : selfSchema.name ∈ RuleSet.standard.targetSchemas := by decide
  exact ⟨ofSet_standard, listed, applyAll_response ofSet_standard listed [] []⟩

end RuleTable

end HyperSchema
