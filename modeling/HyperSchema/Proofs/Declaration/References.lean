import HyperSchema.Proofs.Declaration.Parts
import HyperSchema.Proofs.Declaration.Rewriting
import HyperSchema.Proofs.Declaration.RuleTable

/-!
# References — where names are replaced

References without arguments are replaced by the walk `TypeExpr.mapNames`, which is told whether it
is below a property `included` and does not enter the keys of index signatures.  This file defines:

* `TypeExpr.Stays`, a type that is not itself replaced, and what the walk leaves of its outline and
  makes of its parts;
* `TypeExpr.shows_mapNames_of_key` and `TypeExpr.shows_mapNames`, what the result has at the places
  of a type, behind the keys of index signatures and elsewhere;
* `TypeExpr.replaces_mapNames`: the result is the type with replaced references in open places;
* `RuleTable.applyAll_of_lists`: a rule acts on the declarations that a rule set lists for it, and
  on these alone.
-/

namespace HyperSchema

open Declaration (Step Place)

variable {f : Bool → String → Option TypeExpr} {below : Bool}

/-! ## Parts -/

/-- What becomes of a part, by the way it stands in its type. -/
def Declaration.Step.mapNames (f : Bool → String → Option TypeExpr) (below : Bool) :
    Step → TypeExpr → TypeExpr
  | .key, part => part
  | .property name, part => part.mapNames f (below || name == includedKey)
  | _, part => part.mapNames f below

theorem Declaration.Step.mapNames_of_ne_key {step : Step} (other : step ≠ .key) (part : TypeExpr) :
    step.mapNames f below part =
      part.mapNames f (below || decide (step = .property includedKey)) := by
  cases step with
  | key => exact (other rfl).elim
  | property name => simp only [mapNames, Step.property.injEq, Bool.beq_eq_decide_eq]
  | _ => simp [mapNames]

theorem Member.parts_mapNames (m : Member) :
    (m.mapNames f below).parts =
      m.parts.map fun part => (part.1, part.1.mapNames f below part.2) := by
  cases m <;> rfl

theorem Member.outline_mapNames (m : Member) : (m.mapNames f below).outline = m.outline := by
  cases m <;> rfl

/-- A type is not a reference that is replaced. -/
def TypeExpr.Stays (f : Bool → String → Option TypeExpr) (below : Bool) (t : TypeExpr) : Prop :=
  ∀ name, t = .named name → f below name = none

namespace TypeExpr

variable {t part : TypeExpr} {place : Place} {step : Step} {i : Nat}

theorem stays_of_mem_parts {s : Step × TypeExpr} (mem : s ∈ t.parts) : t.Stays f below := by
  rintro name rfl
  cases mem

theorem parts_mapNames (stays : t.Stays f below) :
    (t.mapNames f below).parts =
      t.parts.map fun part => (part.1, part.1.mapNames f below part.2) := by
  cases t with
  | reference name args =>
      cases args with
      | nil =>
          rw [mapNames, stays name rfl]
          rfl
      | cons arg args =>
          simp only [mapNames, mapNamesAll_eq_map, parts, List.map_map]
          rfl
  | object members =>
      simp only [mapNames, Member.mapNamesAll_eq_map, parts, List.flatMap_map, List.map_flatMap,
        Member.parts_mapNames]
  | tuple items | union items | intersection items =>
      simp only [mapNames, mapNamesAll_eq_map, parts, List.map_map]
      rfl
  | _ => rfl

theorem outline_mapNames (stays : t.Stays f below) : (t.mapNames f below).outline = t.outline := by
  cases t with
  | reference name args =>
      cases args with
      | nil =>
          rw [mapNames, stays name rfl]
          rfl
      | cons arg args =>
          simp only [mapNames, mapNamesAll_eq_map, outline, List.map_map]
          rfl
  | object members =>
      simp only [mapNames, Member.mapNamesAll_eq_map, outline, List.map_map, Function.comp_def,
        Member.outline_mapNames]
  | tuple items | union items | intersection items =>
      simp only [mapNames, mapNamesAll_eq_map, outline, List.map_map]
      rfl
  | _ => rfl

/-! ## Places -/

theorem getElem?_parts_mapNames (f : Bool → String → Option TypeExpr) (below : Bool) {s : TypeExpr}
    (found : t.parts[i]? = some (step, s)) :
    (t.mapNames f below).parts[i]? = some (step, step.mapNames f below s) := by
  rw [parts_mapNames (stays_of_mem_parts (List.mem_of_getElem? found)), List.getElem?_map, found]
  rfl

/-- Behind the keys of an index signature, all is left as it is. -/
theorem shows_mapNames_of_key (shown : t.Shows place part) (keyed : place.Passes .key) :
    (t.mapNames f below).Shows place part := by
  induction shown generalizing below with
  | whole t => cases keyed
  | @inside t s part i step place found inside ih =>
      by_cases key : step = .key
      · -- The walk ends at this step, so what is behind it was not touched.
        subst key
        exact .inside (getElem?_parts_mapNames f below found) inside
      · rcases List.mem_cons.1 keyed with same | keyed
        · exact (key same.symm).elim
        · have shown := getElem?_parts_mapNames f below found
          rw [Step.mapNames_of_ne_key key] at shown
          exact .inside shown (ih keyed)

/-- Elsewhere, the walk comes to each part, and knows whether it is below `included`. -/
theorem shows_mapNames (shown : t.Shows place part) (unkeyed : ¬ place.Passes .key) :
    (t.mapNames f below).Shows place
      (part.mapNames f (below || decide (place.Passes (.property includedKey)))) := by
  -- What the walk is told can only grow on the way, one property at a time.
  induction shown generalizing below with
  | whole t => simpa [Place.Passes] using Shows.whole _
  | @inside t s part i step place found _ ih =>
      rw [Place.passes_cons, not_or] at unkeyed
      have shown := getElem?_parts_mapNames f below found
      rw [Step.mapNames_of_ne_key (Ne.symm unkeyed.1)] at shown
      have inside := @ih (below || decide (step = .property includedKey)) unkeyed.2
      rw [Bool.or_assoc] at inside
      simpa [Place.passes_cons, Bool.decide_or, eq_comm] using Shows.inside shown inside

/-- What is chosen when names are replaced: references without arguments for which there is a
replacement, but none in the keys of index signatures. -/
def IsOpenName (f : Bool → String → Option TypeExpr) (below : Bool) (place : Place)
    (part : TypeExpr) : Prop :=
  ∃ name, part = .named name ∧ ¬ place.Passes .key ∧
    (f (below || decide (place.Passes (.property includedKey))) name).isSome

/-- The walk makes of a type the same type with the open references replaced. -/
theorem replaces_mapNames {new : TypeExpr}
    (only : ∀ below name, ∀ type ∈ f below name, type = new) :
    (t.mapNames f below).Replaces t (IsOpenName f below) new := by
  intro place part shown
  by_cases keyed : place.Passes .key
  · refine ⟨part, shows_mapNames_of_key shown keyed, ?_, fun _ => rfl⟩
    rintro ⟨name, -, unkeyed, -⟩
    exact (unkeyed keyed).elim
  · refine ⟨_, shows_mapNames shown keyed, ?_, ?_⟩
    · rintro ⟨name, rfl, -, given⟩
      rcases Option.isSome_iff_exists.1 given with ⟨type, given⟩
      rw [named, mapNames, given]
      exact only _ _ _ given
    · intro other
      refine outline_mapNames ?_
      rintro name rfl
      rw [← Option.not_isSome_iff_eq_none]
      exact fun given => other ⟨name, rfl, keyed, given⟩

/-- Where nothing is replaced below `included`, all there is left as it is. -/
theorem mapNames_eq_self {new : TypeExpr} (only : ∀ below name, ∀ type ∈ f below name, type = new)
    (nothing : ∀ name, f true name = none) : t.mapNames f true = t := by
  refine (replaces_mapNames only).unique (replaces_self ?_)
  rintro place part - ⟨name, -, -, given⟩
  rw [Bool.true_or, nothing name] at given
  cases given

end TypeExpr

/-! ## Declarations with a rule -/

namespace RuleTable

/-- A rule acts on the declarations that a rule set lists for it, and on these alone. -/
theorem applyAll_of_lists {set : RuleSet} {table : RuleTable} (built : ofSet set = .ok table)
    {declaration made : Declaration} (rule : Rule) (lists : set.Lists declaration.name rule)
    (given : rule.applyTo? set.types declaration = some made) (before after : List Declaration) :
    table.applyAll (before ++ declaration :: after) =
      table.applyAll before ++ made :: table.applyAll after := by
  have step : table.applyTo? declaration = some made := by
    rw [applyTo?, (rule?_eq_some_iff built).2 lists, (parts_of_ofSet built).2.1]
    exact given
  rw [applyAll, List.filterMap_append, List.filterMap_cons_some step]
  rfl

/-- The table of the rules that hold without any configuration. -/
def standard : RuleTable where
  rules := RuleSet.standard.entries
  types := .standard

theorem ofSet_standard : ofSet .standard = .ok standard := by
  have distinct : (Entries.keys RuleSet.standard.entries).Nodup := by decide +kernel
  have added : addAll [] RuleSet.standard.entries = .ok RuleSet.standard.entries :=
    (addAll_eq_ok_iff Entries.nodup_keys_nil).2 ⟨rfl, distinct⟩
  rw [ofSet, added]
  rfl

end RuleTable

end HyperSchema
