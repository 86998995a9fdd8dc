import HyperSchema.Proofs.Json.Distinct
import HyperSchema.Proofs.Schema.Expansion

/-!
# Copies — what inlining leaves of names and links

What a reference stands for is copied without its links, and what is no reference keeps its members.
This file shows:

* `Schema.distinctNames_inlineValue`: names stay distinct;
* `Schema.links_inlineValue`: what has no links gets none, and so `Schema.links_expansion`: however
  many references lead to it, a copy has none;
* `Schema.member?_expansion` and `Schema.definitions_inlined`: members stay where they are.
-/

namespace HyperSchema

namespace Schema

variable {root : Json} {known inProgress : List String}

/-! ## Names -/

theorem distinctNames_of_target? (distinct : root.DistinctNames) {reference : String}
    {target : Json} (given : root.target? reference = some target) : target.DistinctNames := by
  rcases Option.bind_eq_some_iff.1 given with ⟨pointer, -, found⟩
  exact distinct.part (Json.part_of_pointer? found)

theorem distinctNames_withoutLinks {value : Json} (distinct : value.DistinctNames) :
    (withoutLinks value).DistinctNames := by
  cases value with
  | object members =>
      rcases Json.distinctNames_object.1 distinct with ⟨names, each⟩
      refine Json.distinctNames_object.2 ⟨Entries.nodup_keys_swapErase names "links", ?_⟩
      intro entry mem
      exact each entry (Entries.mem_of_mem_swapErase mem)
  | _ => exact distinct

/-- Where no object of a document repeats a name, none does after references are replaced. -/
theorem distinctNames_inlineValue (distinctRoot : root.DistinctNames) {value : Json} :
    value.DistinctNames → (inlineValue root known inProgress value).value.DistinctNames := by
  refine inlineValue_induct (P := fun value made => value.DistinctNames → made.DistinctNames)
    ?_ ?_ ?_ ?_ ?_ inProgress value
  · exact fun value _ _ distinct => distinct
  · intro items made ih distinct
    rw [Json.distinctNames_array] at distinct
    rw [Json.distinctNames_array, List.forall_mem_map]
    intro item mem
    exact ih item mem (distinct item mem)
  · intro members made _ ih distinct
    rcases Json.distinctNames_object.1 distinct with ⟨names, each⟩
    have same : (members.map fun entry => (entry.1, made entry.2)).map (·.1) =
        members.map (·.1) := List.map_map
    rw [Json.distinctNames_object, Entries.keys, same, List.forall_mem_map]
    refine ⟨names, ?_⟩
    intro entry mem
    exact ih entry mem (each entry mem)
  · exact fun members reference _ distinct => distinct
  · intro members reference target made _ given ih _
    exact ih (distinctNames_withoutLinks (distinctNames_of_target? distinctRoot given))

/-! ## Links -/

theorem links_withoutLinks {value : Json} (distinct : value.DistinctNames) :
    (withoutLinks value).member? "links" = none := by
  cases value with
  | object members => exact Entries.get?_swapErase_self (distinct members .whole) "links"
  | _ => rfl

/-- What has no links gets none, through any chain of references. -/
theorem links_inlineValue (distinctRoot : root.DistinctNames) {value : Json} :
    value.member? "links" = none →
      (inlineValue root known inProgress value).value.member? "links" = none := by
  refine inlineValue_induct (P := fun value made =>
    value.member? "links" = none → made.member? "links" = none) ?_ ?_ ?_ ?_ ?_ inProgress value
  · exact fun value _ _ none => none
  · exact fun items made _ _ => rfl
  · intro members made _ _ none
    rw [Json.member?_object] at none ⊢
    rw [Entries.get?_map fun _ value => made value, none, Option.map_none]
  · exact fun members reference _ none => none
  · intro members reference target made _ given ih _
    exact ih (links_withoutLinks (distinctNames_of_target? distinctRoot given))

/-! ## Parts of a document -/

variable {part : Json}

theorem distinctNames_expansion (distinct : root.DistinctNames) (inside : Json.Part part root) :
    (expansion root part).value.DistinctNames :=
  distinctNames_inlineValue distinct (distinct.part inside)

/-- What is no reference keeps its members, with the references in each of them replaced. -/
theorem member?_expansion (plain : part.reference? = none) (name : String) :
    (expansion root part).value.member? name =
      (part.member? name).map fun value => (expansion root value).value := by
  unfold expansion
  cases part with
  | null => simp only [inlineValue, Noted.value_pure, Json.member?, Option.map_none]
  | bool value => simp only [inlineValue, Noted.value_pure, Json.member?, Option.map_none]
  | number value => simp only [inlineValue, Noted.value_pure, Json.member?, Option.map_none]
  | string text => simp only [inlineValue, Noted.value_pure, Json.member?, Option.map_none]
  | array items =>
      rw [value_inlineValue_array]
      rfl
  | object members =>
      rw [value_inlineValue_object root root.references [] plain, Json.member?_object,
        Json.member?_object]
      exact Entries.get?_map (fun _ value => (expansion root value).value) members name

/-- A reference that has a target becomes a copy without links. -/
theorem links_expansion (distinct : root.DistinctNames) {reference : String}
    (inside : Json.Part part root) (isReference : part.reference? = some reference)
    (hasTarget : root.target? reference ≠ none) :
    (expansion root part).value.member? "links" = none := by
  rcases Option.bind_eq_some_iff.1 isReference with ⟨members, shape, found⟩
  cases part with
  | object members' =>
      cases shape
      have isKnown := Json.mem_references (mem_of_referenceIn? found) inside
      rcases value_inlineValue_reference root root.references [] found with
        ⟨-, elsewhere | busy | missing | unknown⟩ | ⟨target, given, -, replaced⟩
      · rw [Json.target?, elsewhere] at hasTarget
        exact absurd rfl hasTarget
      · cases busy
      · exact absurd missing hasTarget
      · exact absurd isKnown unknown
      · rw [expansion, replaced]
        have whole := distinctNames_of_target? distinct given
        exact links_inlineValue distinct (links_withoutLinks whole)
  | _ => cases shape

/-- Definitions keep their names and their order. -/
theorem definitions_inlined {definitions : List (String × Json)}
    (plainRoot : root.reference? = none)
    (declared : root.member? "definitions" = some (.object definitions))
    (plain : referenceIn? definitions = none) :
    (root.inlined.value.member? "definitions").bind Json.members? =
      some (definitions.map fun entry => (entry.1, (expansion root entry.2).value)) := by
  show ((expansion root root).value.member? "definitions").bind Json.members? = _
  rw [member?_expansion plainRoot, declared, Option.map_some, Option.bind_some, expansion,
    value_inlineValue_object root root.references [] plain]
  rfl

end Schema

end HyperSchema
