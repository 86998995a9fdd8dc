import HyperSchema.Declaration.Rule
import HyperSchema.Proofs.Entries

/-!
# Rule tables — the rule that a name has

A table takes up the rules of a rule set one by one and refuses a name that it has already.  So a
table that is made holds all rules of the set, and no name has two:

* `RuleTable.addAll_eq_ok_iff`, what a table becomes when rules are added to it, and
  `RuleTable.addAll_eq_error_iff`, the rule at which that fails;
* `RuleSet.mem_entries_iff`, which list of the set a rule comes from;
* `RuleTable.rule?_eq_some_iff`: a name has the rule that the set lists for it;
* `RuleSet.FirstOverlap`, the first rule of a set whose name has one already;
* `RuleTable.ofSet_of_entries`: a table is the disjoint union of the lists, or there is an overlap.
-/

namespace HyperSchema

namespace RuleSet

/-- A rule set lists a rule for a name. -/
def Lists (set : RuleSet) (name : String) : Rule → Prop
  | .drop => name ∈ set.drop
  | .rename newName => (name, newName) ∈ set.rename
  | .targetSchema => name ∈ set.targetSchemas
  | .itemSchema => name ∈ set.itemSchemas
  | .relationships => name ∈ set.relationships

theorem mem_entries_iff {set : RuleSet} {name : String} {rule : Rule} :
    (name, rule) ∈ set.entries ↔ set.Lists name rule := by
  cases rule <;> simp [entries, Lists]

/-- Up to some entry of a rule set no name is repeated, and that entry repeats the name of an
earlier one. -/
def FirstOverlap (set : RuleSet) (name : String) (first second : Rule) : Prop :=
  ∃ before after, set.entries = before ++ (name, second) :: after ∧
    (Entries.keys before).Nodup ∧ (name, first) ∈ before

end RuleSet

namespace RuleTable

theorem not_nodup_keys_of_mem {known rest : List (String × Rule)} {name : String} {rule : Rule}
    (mem : name ∈ Entries.keys known) : ¬ (Entries.keys (known ++ (name, rule) :: rest)).Nodup := by
  intro nodup
  rw [Entries.keys, List.map_append] at nodup
  exact (List.nodup_append.1 nodup).2.2 name mem name List.mem_cons_self rfl

/-- Rules are added if and only if no name is repeated, and then all of them are there, in order. -/
theorem addAll_eq_ok_iff {known rest rules : List (String × Rule)}
    (distinct : (Entries.keys known).Nodup) :
    addAll known rest = .ok rules ↔
      rules = known ++ rest ∧ (Entries.keys (known ++ rest)).Nodup := by
  induction rest generalizing known with
  | nil =>
      rw [addAll, List.append_nil, Except.ok.injEq, eq_comm]
      exact (and_iff_left distinct).symm
  | cons entry rest ih =>
      rcases entry with ⟨name, rule⟩
      have step : known ++ (name, rule) :: rest = (known ++ [(name, rule)]) ++ rest := by simp
      rw [addAll]
      split
      · rename_i earlier found
        -- The name is known, so it stands twice in what would be the result.
        have isKnown : name ∈ Entries.keys known := List.mem_map_of_mem (Entries.mem_of_get? found)
        constructor
        · intro h
          cases h
        · rintro ⟨-, nodup⟩
          exact absurd nodup (not_nodup_keys_of_mem isKnown)
      · rename_i fresh
        have extended : (Entries.keys (known ++ [(name, rule)])).Nodup :=
          Entries.nodup_keys_concat distinct (Entries.get?_eq_none_iff.1 fresh) rule
        rw [ih extended, ← step]

/-- Adding fails at the first rule whose name is repeated, and the error names both rules. -/
theorem addAll_eq_error_iff {known rest : List (String × Rule)} {e : DeclarationError}
    (distinct : (Entries.keys known).Nodup) :
    addAll known rest = .error e ↔
      ∃ before name first second after, rest = before ++ (name, second) :: after ∧
        (Entries.keys (known ++ before)).Nodup ∧ (name, first) ∈ known ++ before ∧
          e = .overlappingRule name first.bucket second.bucket := by
  induction rest generalizing known with
  | nil =>
      constructor
      · intro added
        cases added
      · rintro ⟨before, _, _, _, _, split, -⟩
        cases before <;> cases split
  | cons entry rest ih =>
      rcases entry with ⟨name, rule⟩
      have shift : ∀ before,
          known ++ (name, rule) :: before = (known ++ [(name, rule)]) ++ before :=
        fun before => List.append_cons known _ before
      rw [addAll]
      split
      · rename_i earlier found
        have known_mem : (name, earlier) ∈ known := Entries.mem_of_get? found
        constructor
        · intro failed
          cases failed
          exact ⟨[], name, earlier, rule, rest, rfl, by rwa [List.append_nil],
            List.mem_append_left _ known_mem, rfl⟩
        · rintro ⟨before, other, first, second, after, split, nodup, mem, rfl⟩
          cases before with
          | nil =>
              cases split
              rw [List.append_nil] at mem
              have same := Entries.get?_of_mem distinct mem
              rw [found] at same
              cases same
              rfl
          | cons head before =>
              -- The name would be repeated earlier.
              cases split
              exact absurd nodup (not_nodup_keys_of_mem (List.mem_map_of_mem known_mem))
      · rename_i fresh
        have absent : name ∉ Entries.keys known := Entries.get?_eq_none_iff.1 fresh
        rw [ih (Entries.nodup_keys_concat distinct absent rule)]
        constructor
        · rintro ⟨before, other, first, second, after, rfl, nodup, mem, same⟩
          rw [← shift] at nodup mem
          exact ⟨(name, rule) :: before, other, first, second, after, rfl, nodup, mem, same⟩
        · rintro ⟨before, other, first, second, after, split, nodup, mem, same⟩
          cases before with
          | nil =>
              -- The name of this rule is new.
              cases split
              rw [List.append_nil] at mem
              exact absurd (List.mem_map_of_mem mem) absent
          | cons head before =>
              cases split
              rw [shift] at nodup mem
              exact ⟨before, other, first, second, after, rfl, nodup, mem, same⟩

theorem parts_of_ofSet {set : RuleSet} {table : RuleTable} (built : ofSet set = .ok table) :
    table.rules = set.entries ∧ table.types = set.types ∧ (Entries.keys set.entries).Nodup := by
  cases added : addAll [] set.entries with
  | error e =>
      rw [ofSet, added] at built
      cases built
  | ok rules =>
      rw [ofSet, added] at built
      cases built
      rcases (addAll_eq_ok_iff Entries.nodup_keys_nil).1 added with ⟨same, distinct⟩
      exact ⟨same, rfl, distinct⟩

/-- A name has the rule that the rule set lists for it, and no other. -/
theorem rule?_eq_some_iff {set : RuleSet} {table : RuleTable} (built : ofSet set = .ok table)
    {name : String} {rule : Rule} : table.rule? name = some rule ↔ set.Lists name rule := by
  rcases parts_of_ofSet built with ⟨same, -, distinct⟩
  rw [rule?, same, ← RuleSet.mem_entries_iff]
  exact ⟨Entries.mem_of_get?, Entries.get?_of_mem distinct⟩

/-- A table can be made exactly if no name is listed twice. -/
theorem exists_ofSet_iff {set : RuleSet} :
    (∃ table, ofSet set = .ok table) ↔ (Entries.keys set.entries).Nodup := by
  constructor
  · rintro ⟨table, built⟩
    exact (parts_of_ofSet built).2.2
  · intro distinct
    have added : addAll [] set.entries = .ok set.entries :=
      (addAll_eq_ok_iff Entries.nodup_keys_nil).2 ⟨rfl, distinct⟩
    exact ⟨_, by rw [ofSet, added]; rfl⟩

theorem ofSet_eq_error_iff {set : RuleSet} {e : DeclarationError} :
    ofSet set = .error e ↔
      ∃ name first second, set.FirstOverlap name first second ∧
        e = .overlappingRule name first.bucket second.bucket := by
  have failed : ofSet set = .error e ↔ addAll [] set.entries = .error e := by
    rw [ofSet]
    cases addAll [] set.entries <;> simp [Except.map]
  rw [failed, addAll_eq_error_iff Entries.nodup_keys_nil]
  constructor
  · rintro ⟨before, name, first, second, after, split, nodup, mem, same⟩
    exact ⟨name, first, second, ⟨before, after, split, nodup, mem⟩, same⟩
  · rintro ⟨name, first, second, ⟨before, after, split, nodup, mem⟩, same⟩
    exact ⟨before, name, first, second, after, split, nodup, mem, same⟩

/-- The rules of a set stand list after list.  If no name is repeated among them, the table has for
each name the rule that is listed for it and nothing else; otherwise the first rule with a name that
has one already is named together with the earlier one. -/
theorem ofSet_of_entries (set : RuleSet) :
    ((∃ table, ofSet set = .ok table) ↔ (Entries.keys set.entries).Nodup) ∧
      (∀ table, ofSet set = .ok table →
        (∀ name rule, table.rule? name = some rule ↔ (name, rule) ∈ set.entries) ∧
          table.size = set.entries.length ∧ table.types = set.types) ∧
      ∀ e, ofSet set = .error e ↔
        ∃ name first second, set.FirstOverlap name first second ∧
          e = .overlappingRule name first.bucket second.bucket := by
  refine ⟨exists_ofSet_iff, fun table built => ?_, fun e => ofSet_eq_error_iff⟩
  rcases parts_of_ofSet built with ⟨same, types, -⟩
  refine ⟨fun name rule => ?_, by rw [size, same], types⟩
  rw [rule?_eq_some_iff built, RuleSet.mem_entries_iff]

/-- Rules that list one name in two lists, and another twice in one list further on. -/
def overlappingRules : RuleSet where
  types := ⟨"Item", "NestedItem", "ItemDefinition", "ItemData", "ItemAttributes"⟩
  drop := ["Draft", "Page"]
  rename := [("Item", "Record"), ("Page", "PageShell")]
  targetSchemas := []
  itemSchemas := ["ItemCreateSchema"]
  relationships := ["Links", "Links"]

/-- The same rules with each name in one list. -/
def disjointRules : RuleSet :=
  { overlappingRules with rename := [("Item", "Record")], relationships := ["Links"] }

/-- Of the two overlaps the first is the one that is reported; without them every rule is found. -/
theorem ofSet_overlappingRules :
    ofSet overlappingRules = .error (.overlappingRule "Page" "drop" "rename") ∧
      ∃ table, ofSet disjointRules = .ok table ∧ table.rule? "Links" = some .relationships ∧
        table.rule? "PageShell" = none ∧ table.size = 5 := by
  have first : overlappingRules.FirstOverlap "Page" .drop (.rename "PageShell") := by
    refine ⟨[("Draft", .drop), ("Page", .drop), ("Item", .rename "Record")],
      [("ItemCreateSchema", .itemSchema), ("Links", .relationships), ("Links", .relationships)],
      rfl, ?_, ?_⟩
    · decide
    · decide
  have distinct : (Entries.keys disjointRules.entries).Nodup := by decide
  rcases (ofSet_of_entries disjointRules).1.2 distinct with ⟨table, built⟩
  rcases (ofSet_of_entries disjointRules).2.1 table built with ⟨rules, length, -⟩
  refine ⟨((ofSet_of_entries overlappingRules).2.2 _).2 ⟨_, _, _, first, rfl⟩, table, built, ?_⟩
  refine ⟨(rules _ _).2 (by decide), ?_, length⟩
  rw [Option.eq_none_iff_forall_ne_some]
  intro rule listed
  have mem : "PageShell" ∈ Entries.keys disjointRules.entries :=
    List.mem_map_of_mem ((rules _ _).1 listed)
  exact absurd mem (by decide)

end RuleTable

end HyperSchema
