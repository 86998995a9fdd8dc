import HyperSchema.Declaration.Generic
import HyperSchema.Declaration.RuleSet
import HyperSchema.Proofs.Declaration.RuleTable
import Mathlib.Data.List.Nodup
import Mathlib.Data.List.Pairwise

/-!
# New names — when rewritten declarations have distinct names

A rule set lists no name twice, but nothing is said about new names: two declarations may get one of
them, and it may be the name of a third.  This file defines:

* `Rule.newName?` and `RuleTable.newName?`, what becomes of a name;
* `RuleTable.names_applyAll`: the names behind a table are what becomes of the names before it;
* `RuleSet.Frees`, the names that are given up, and `RuleTable.newName?_eq_some_iff`;
* `RuleTable.nodup_names_applyAll_iff`: names stay distinct if and only if each new name is given to
  one declaration and is kept by none.
-/

namespace HyperSchema

/-- Results of distinct elements are distinct if and only if no two elements have one result. -/
theorem nodup_filterMap_iff {α β : Type} {f : α → Option β} {list : List α}
    (distinct : list.Nodup) :
    (list.filterMap f).Nodup ↔
      ∀ a ∈ list, ∀ b ∈ list, ∀ c, f a = some c → f b = some c → a = b := by
  rw [List.Nodup, List.pairwise_filterMap]
  constructor
  · intro apart a ha b hb c isA isB
    have : Std.Symm fun a b => ∀ c, f a = some c → ∀ d, f b = some d → c ≠ d :=
      ⟨fun a b h c isB d isA => (h d isA c isB).symm⟩
    by_contra different
    exact apart.forall ha hb different c isA c isB rfl
  · intro injective
    refine distinct.pairwise_of_forall_ne ?_
    rintro a ha b hb different c isA d isB rfl
    exact different (injective a ha b hb c isA isB)

/-! ## What becomes of a name -/

/-- The name of a declaration under a rule, if the declaration is kept. -/
def Rule.newName? (name : String) : Rule → Option String
  | drop => none
  | rename newName => some newName
  | targetSchema => some name
  | itemSchema => some name
  | relationships => some name

theorem Rule.name_applyTo? (types : TypeNames) (declaration : Declaration) (rule : Rule) :
    (rule.applyTo? types declaration).map Declaration.name = rule.newName? declaration.name := by
  cases rule <;> rfl

namespace RuleTable

/-- The name of a declaration under a table, if the declaration is kept. -/
def newName? (table : RuleTable) (name : String) : Option String :=
  match table.rule? name with
  | some rule => rule.newName? name
  | none => some name

theorem name_applyTo? (table : RuleTable) (declaration : Declaration) :
    (table.applyTo? declaration).map Declaration.name = table.newName? declaration.name := by
  rw [applyTo?, newName?]
  cases table.rule? declaration.name with
  | none => rfl
  | some rule => exact rule.name_applyTo? table.types declaration

theorem names_applyAll (table : RuleTable) (declarations : List Declaration) :
    (table.applyAll declarations).map Declaration.name =
      (declarations.map Declaration.name).filterMap table.newName? := by
  rw [applyAll, List.map_filterMap, List.filterMap_map]
  exact List.filterMap_congr fun declaration _ => table.name_applyTo? declaration

end RuleTable

/-! ## Names that are given up -/

/-- A name is given up: its declaration is left out or renamed. -/
def RuleSet.Frees (set : RuleSet) (name : String) : Prop :=
  name ∈ set.drop ∨ ∃ newName, (name, newName) ∈ set.rename

namespace RuleTable

variable {set : RuleSet} {table : RuleTable}

/-- The name of a declaration behind a table is one that it got, or one that it kept. -/
theorem newName?_eq_some_iff (built : ofSet set = .ok table) {name found : String} :
    table.newName? name = some found ↔
      (name, found) ∈ set.rename ∨ name = found ∧ ¬ set.Frees name := by
  have dropped : table.rule? name = some .drop ↔ name ∈ set.drop := rule?_eq_some_iff built
  have renamed : ∀ newName,
      table.rule? name = some (.rename newName) ↔ (name, newName) ∈ set.rename :=
    fun _ => rule?_eq_some_iff built
  simp only [newName?, RuleSet.Frees, ← dropped, ← renamed]
  cases table.rule? name with
  | none => simp
  | some rule => cases rule <;> simp [Rule.newName?]

/-- The names of declarations stay distinct if and only if no two of them get one new name and no
other keeps it. -/
theorem nodup_names_applyAll_iff {declarations : List Declaration} (built : ofSet set = .ok table)
    (distinct : (declarations.map Declaration.name).Nodup) :
    ((table.applyAll declarations).map Declaration.name).Nodup ↔
      ∀ name newName, (name, newName) ∈ set.rename → name ∈ declarations.map Declaration.name →
        (∀ other, (other, newName) ∈ set.rename →
          other ∈ declarations.map Declaration.name → other = name) ∧
        (newName ∈ declarations.map Declaration.name → set.Frees newName) := by
  rw [names_applyAll, nodup_filterMap_iff distinct]
  simp only [newName?_eq_some_iff built]
  constructor
  · intro apart name newName renamed mem
    refine ⟨fun other renamed' mem' => ?_, fun taken => ?_⟩
    · exact apart other mem' name mem newName (.inl renamed') (.inl renamed)
    · by_contra keeps
      have same := apart name mem newName taken newName (.inl renamed) (.inr ⟨rfl, keeps⟩)
      exact keeps (.inr ⟨newName, same ▸ renamed⟩)
  · rintro apart a ha b hb c (renamed | ⟨rfl, keeps⟩) (renamed' | ⟨rfl, keeps'⟩)
    · exact (apart b c renamed' hb).1 a renamed ha
    · exact (keeps' ((apart a b renamed ha).2 hb)).elim
    · exact (keeps ((apart b a renamed' hb).2 ha)).elim
    · rfl

/-- Rules that give one new name to two declarations. -/
def sharedRules : RuleSet :=
  { RuleSet.standard with rename := [("Author", "Person"), ("Editor", "Person")] }

/-- The table that is made of these rules. -/
def sharedTable : RuleTable where
  rules := sharedRules.entries
  types := sharedRules.types

/-- A declaration for each of the old names. -/
def sharedBatch : List Declaration :=
  ["Author", "Editor"].map fun name =>
    { name, doc := none, params := [], body := .alias (.keyword .string), isExported := true }

/-- The rules are accepted, and both declarations come out under one name. -/
theorem not_nodup_names_sharedBatch :
    ofSet sharedRules = .ok sharedTable ∧ (sharedBatch.map Declaration.name).Nodup ∧
      ¬ ((sharedTable.applyAll sharedBatch).map Declaration.name).Nodup := by
  have built : ofSet sharedRules = .ok sharedTable := by decide +kernel
  have distinct : (sharedBatch.map Declaration.name).Nodup := by decide
  refine ⟨built, distinct, ?_⟩
  intro nodup
  have single := ((nodup_names_applyAll_iff built distinct).1 nodup "Author" "Person" (by decide)
    (by decide)).1
  exact absurd (single "Editor" (by decide) (by decide)) (by decide)

end RuleTable

end HyperSchema
