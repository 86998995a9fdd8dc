import HyperSchema.Json.Reader
import HyperSchema.Proofs.Entries
import HyperSchema.Proofs.Json.Part

/-!
# Distinct — objects whose members have distinct names

An object that is read has one member for each name, since of a repeated name only the last value is
kept.  This file defines:

* `Json.DistinctNames`, the values in which no object repeats a name;
* `Json.distinctNames_of_parse?`: every value that is read is of this kind.
-/

namespace HyperSchema

namespace Json

/-- No object in the value repeats a name. -/
def DistinctNames (value : Json) : Prop :=
  ∀ members, Part (.object members) value → (Entries.keys members).Nodup

theorem DistinctNames.part {value part : Json} (h : value.DistinctNames)
    (inside : Part part value) : part.DistinctNames :=
  fun members stands => h members (stands.trans inside)

@[simp] theorem distinctNames_array {items : List Json} :
    (array items).DistinctNames ↔ ∀ item ∈ items, item.DistinctNames := by
  constructor
  · intro h item mem
    exact h.part (.item mem .whole)
  · intro each members stands
    cases stands with
    | item mem inside => exact each _ mem members inside

@[simp] theorem distinctNames_object {members : Entries Json} :
    (object members).DistinctNames ↔
      members.keys.Nodup ∧ ∀ entry ∈ members, entry.2.DistinctNames := by
  constructor
  · intro h
    exact ⟨h members .whole, fun entry mem => h.part (.member mem .whole)⟩
  · rintro ⟨distinct, each⟩ others stands
    cases stands with
    | whole => exact distinct
    | member mem inside => exact each _ mem others inside

/-- A value without parts holds no object. -/
theorem distinctNames_plain {value : Json} (noItems : value.items? = none)
    (noMembers : value.members? = none) : value.DistinctNames := by
  intro members stands
  cases stands with
  | whole => cases noMembers
  | item => cases noItems
  | member => cases noMembers

@[simp] theorem distinctNames_string (text : String) : (string text).DistinctNames :=
  distinctNames_plain rfl rfl

namespace Reader

/-- What is read at some fuel repeats no name; what was read before does not either. -/
structure ReadsDistinct (fuel : Nat) : Prop where
  value : ∀ {depth text found rest}, value fuel depth text = some (found, rest) →
    found.DistinctNames
  items : ∀ {depth acc text found rest}, (∀ item ∈ acc, item.DistinctNames) →
    items fuel depth acc text = some (found, rest) → ∀ item ∈ found, item.DistinctNames
  members : ∀ {depth acc text} {found : Entries Json} {rest},
    (∀ entry ∈ acc, entry.2.DistinctNames) →
    members fuel depth acc text = some (found, rest) →
    found.keys.Nodup ∧ ∀ entry ∈ found, entry.2.DistinctNames

theorem value_distinct {fuel depth : Nat} {text rest : List Char} {found : Json}
    (inner : ReadsDistinct fuel) (h : value (fuel + 1) depth text = some (found, rest)) :
    found.DistinctNames := by
  rw [value] at h
  split at h
  · split at h
    · cases h
    · split at h
      · cases h
        exact distinctNames_array.2 (List.forall_mem_nil _)
      · rcases Option.map_eq_some_iff.1 h with ⟨⟨items, after⟩, read, same⟩
        cases same
        exact distinctNames_array.2 (inner.items (List.forall_mem_nil _) read)
  · split at h
    · cases h
    · split at h
      · cases h
        exact distinctNames_object.2 ⟨List.nodup_nil, List.forall_mem_nil _⟩
      · rcases Option.map_eq_some_iff.1 h with ⟨⟨members, after⟩, read, same⟩
        cases same
        exact distinctNames_object.2 (inner.members (List.forall_mem_nil _) read)
  all_goals
    rcases Option.map_eq_some_iff.1 h with ⟨read, -, same⟩
    cases same
    exact distinctNames_plain rfl rfl

theorem items_distinct {fuel depth : Nat} {acc found : List Json} {text rest : List Char}
    (inner : ReadsDistinct fuel) (before : ∀ item ∈ acc, item.DistinctNames)
    (h : items (fuel + 1) depth acc text = some (found, rest)) :
    ∀ item ∈ found, item.DistinctNames := by
  rw [items] at h
  split at h
  · cases h
  · rename_i item after read
    have all := List.forall_mem_cons.2 ⟨inner.value read, before⟩
    split at h
    · exact inner.items all h
    · cases h
      intro item mem
      exact all item (List.mem_reverse.1 mem)
    · cases h

theorem members_distinct {fuel depth : Nat} {acc found : Entries Json} {text rest : List Char}
    (inner : ReadsDistinct fuel) (before : ∀ entry ∈ acc, entry.2.DistinctNames)
    (h : members (fuel + 1) depth acc text = some (found, rest)) :
    found.keys.Nodup ∧ ∀ entry ∈ found, entry.2.DistinctNames := by
  rw [members] at h
  split at h
  · split at h
    · cases h
    · rename_i name after _
      split at h
      · split at h
        · cases h
        · rename_i value after read
          have all : ∀ entry ∈ (name, value) :: acc, entry.2.DistinctNames :=
            List.forall_mem_cons.2 ⟨inner.value read, before⟩
          split at h
          · exact inner.members all h
          · -- The members are collected at the end, and a repeated name is given up there.
            cases h
            rcases Entries.ofList_spec ((name, value) :: acc).reverse with ⟨distinct, inside⟩
            refine ⟨distinct, fun entry mem => all entry ?_⟩
            exact List.mem_reverse.1 (inside mem)
          · cases h
      · cases h
  · cases h

theorem readsDistinct (fuel : Nat) : ReadsDistinct fuel := by
  induction fuel with
  | zero => exact ⟨nofun, nofun, nofun⟩
  | succ fuel ih => exact ⟨value_distinct ih, items_distinct ih, members_distinct ih⟩

end Reader

/-- A value that is read repeats no name. -/
theorem distinctNames_of_parse? {depth : Nat} {text : String} {value : Json}
    (h : parse? depth text = some value) : value.DistinctNames := by
  rw [parse?] at h
  split at h
  · rename_i read
    split at h
    · cases h
      exact (Reader.readsDistinct _).value read
    · cases h
  · cases h

end Json

end HyperSchema
