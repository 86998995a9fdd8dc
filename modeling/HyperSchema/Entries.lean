/-!
# Entries: maps that remember their order

A map from names to values whose order is part of its value.  This file defines:

* `Entries α`, a list of named values, read through its first occurrence of a name;
* `get?`, `insert`, `erase` and `swapErase`;
* the facts about size that recursion through a map needs.

`insert` on a known name keeps the place of the name; `swapErase` fills the gap with the last entry.
-/

namespace HyperSchema

/-- Named values in order.  Where a name is repeated, the first occurrence counts. -/
abbrev Entries (α : Type) := List (String × α)

namespace Entries

variable {α : Type}

/-! ## Reading -/

/-- The value stored under a name. -/
def get? : Entries α → String → Option α
  | [], _ => none
  | (name, value) :: rest, key => if name = key then some value else get? rest key

/-- Whether a name is present. -/
def contains (entries : Entries α) (key : String) : Bool :=
  (entries.get? key).isSome

/-- The names in order. -/
def keys (entries : Entries α) : List String :=
  entries.map (·.1)

/-! ## Writing -/

/-- Stores a value: a known name keeps its place, a new one goes to the end. -/
def insert : Entries α → String → α → Entries α
  | [], key, value => [(key, value)]
  | (name, old) :: rest, key, value =>
      if name = key then (name, value) :: rest else (name, old) :: insert rest key value

/-- Removes a name; the entries behind it move up. -/
def erase : Entries α → String → Entries α
  | [], _ => []
  | (name, value) :: rest, key =>
      if name = key then rest else (name, value) :: erase rest key

/-- Removes a name; the last entry moves into its place. -/
def swapErase : Entries α → String → Entries α
  | [], _ => []
  | (name, value) :: rest, key =>
      if name = key then
        match rest.getLast? with
        | none => []
        | some last => last :: rest.dropLast
      else
        (name, value) :: swapErase rest key

/-- Collects entries one by one, so that of a repeated name the last value stands at the first
place. -/
def ofList (pairs : List (String × α)) : Entries α :=
  pairs.foldl (fun entries pair => insert entries pair.1 pair.2) []

/-! ## Reading back what was written -/

@[simp] theorem get?_nil (key : String) : get? ([] : Entries α) key = none := rfl

@[simp] theorem get?_cons (name : String) (value : α) (rest : Entries α) (key : String) :
    get? ((name, value) :: rest) key = if name = key then some value else get? rest key := rfl

theorem get?_insert (entries : Entries α) (key : String) (value : α) (other : String) :
    (entries.insert key value).get? other =
      if key = other then some value else entries.get? other := by
  induction entries with
  | nil => simp [insert]
  | cons entry rest ih =>
    obtain ⟨name, old⟩ := entry
    by_cases h : name = key
    · subst h
      by_cases h' : name = other <;> simp [insert, h']
    · by_cases h' : name = other
      · subst h'
        simp [insert, h, Ne.symm h]
      · simp [insert, h, h', ih]

/-- The names after an insertion: unchanged if the name was known, else with the name at the end. -/
theorem keys_insert (entries : Entries α) (key : String) (value : α) :
    (entries.insert key value).keys =
      if key ∈ entries.keys then entries.keys else entries.keys ++ [key] := by
  induction entries with
  | nil => simp [insert, keys]
  | cons entry rest ih =>
    obtain ⟨name, old⟩ := entry
    by_cases h : name = key
    · subst h
      simp [insert, keys]
    · have h' : ¬ key = name := fun e => h e.symm
      simp only [keys] at ih
      simp only [insert, h, keys, List.map_cons, if_false, List.mem_cons, h', false_or, ih]
      split <;> simp_all

/-- The names after an insertion, without their order. -/
theorem mem_keys_insert {entries : Entries α} {key name : String} {value : α} :
    name ∈ (entries.insert key value).keys ↔ name = key ∨ name ∈ entries.keys := by
  rw [keys_insert]
  split
  · rename_i known
    constructor
    · exact Or.inr
    · rintro (rfl | mem)
      · exact known
      · exact mem
  · rw [List.mem_append, List.mem_singleton, or_comm]

/-! ## Entries that are present -/

theorem mem_of_get? {entries : Entries α} {key : String} {value : α}
    (h : entries.get? key = some value) : (key, value) ∈ entries := by
  induction entries with
  | nil => simp at h
  | cons entry rest ih =>
    obtain ⟨name, first⟩ := entry
    rw [get?_cons] at h
    split at h
    · rename_i same
      cases h
      exact same ▸ List.mem_cons_self
    · exact List.mem_cons_of_mem _ (ih h)

/-- Values are replaced under the names that they have. -/
theorem get?_map {β : Type} (f : String → α → β) (entries : Entries α) (key : String) :
    get? (entries.map fun entry => (entry.1, f entry.1 entry.2)) key =
      (entries.get? key).map (f key) := by
  induction entries with
  | nil => rfl
  | cons entry rest ih =>
    rw [List.map_cons, get?_cons, get?_cons, ih]
    split
    · rename_i same
      rw [← same]
      rfl
    · rfl

/-- Entries are kept or left out by their names. -/
theorem get?_filter (p : String → Bool) (entries : Entries α) (key : String) :
    get? (entries.filter fun entry => p entry.1) key = if p key then entries.get? key else none := by
  induction entries with
  | nil => simp
  | cons entry rest ih =>
    obtain ⟨name, value⟩ := entry
    by_cases same : name = key
    · subst same
      cases kept : p name <;> simp_all
    · cases kept : p name <;> simp_all

theorem get?_append (entries others : Entries α) (key : String) :
    get? (entries ++ others) key = (entries.get? key).or (others.get? key) := by
  induction entries with
  | nil => rfl
  | cons entry rest ih =>
    rw [List.cons_append, get?_cons, get?_cons, ih]
    split <;> rfl

theorem contains_iff {entries : Entries α} {key : String} :
    entries.contains key = true ↔ key ∈ entries.keys := by
  induction entries with
  | nil => simp [contains, keys]
  | cons entry rest ih =>
    obtain ⟨name, value⟩ := entry
    rw [contains, get?_cons, keys, List.map_cons, List.mem_cons]
    split
    · rename_i same
      simp [same]
    · rename_i other
      rw [contains, keys] at ih
      simp [ih, Ne.symm other]

/-- What is there already can be stored again. -/
theorem insert_eq_self {entries : Entries α} {key : String} {value : α}
    (h : entries.get? key = some value) : entries.insert key value = entries := by
  induction entries with
  | nil => cases h
  | cons entry rest ih =>
    obtain ⟨name, first⟩ := entry
    rw [get?_cons] at h
    rw [insert]
    split at h
    · rename_i same
      cases h
      rw [if_pos same]
    · rename_i other
      rw [if_neg other, ih h]

/-- Storing a value adds one entry at most. -/
theorem mem_of_mem_insert {entries : Entries α} {key : String} {value : α} {entry : String × α}
    (mem : entry ∈ entries.insert key value) : entry = (key, value) ∨ entry ∈ entries := by
  induction entries with
  | nil => simpa [insert] using mem
  | cons first rest ih =>
    obtain ⟨name, old⟩ := first
    by_cases same : name = key
    · have : entry = (key, value) ∨ entry ∈ rest := by simpa [insert, same] using mem
      exact this.imp_right (List.mem_cons_of_mem _)
    · have : entry = (name, old) ∨ entry ∈ insert rest key value := by
        simpa [insert, same] using mem
      rcases this with rfl | inside
      · exact .inr List.mem_cons_self
      · exact (ih inside).imp_right (List.mem_cons_of_mem _)

/-- Removing a name adds no entries. -/
theorem mem_of_mem_swapErase {entries : Entries α} {key : String} {entry : String × α}
    (h : entry ∈ entries.swapErase key) : entry ∈ entries := by
  induction entries with
  | nil => simp [swapErase] at h
  | cons first rest ih =>
    obtain ⟨name, value⟩ := first
    rw [swapErase] at h
    split at h
    · split at h
      · simp at h
      · rename_i last hl
        refine List.mem_cons_of_mem _ ?_
        rcases List.mem_cons.1 h with rfl | h
        · exact List.mem_of_getLast? hl
        · exact List.dropLast_subset rest h
    · rcases List.mem_cons.1 h with rfl | h
      · exact List.mem_cons_self
      · exact List.mem_cons_of_mem _ (ih h)

/-! ## Size -/

theorem sizeOf_get? [SizeOf α] {entries : Entries α} {key : String} {value : α}
    (h : entries.get? key = some value) : sizeOf value < sizeOf entries := by
  induction entries with
  | nil => simp at h
  | cons entry rest ih =>
    obtain ⟨name, old⟩ := entry
    rw [get?_cons] at h
    split at h
    · cases h
      simp only [List.cons.sizeOf_spec, Prod.mk.sizeOf_spec]
      omega
    · have := ih h
      simp only [List.cons.sizeOf_spec]
      omega

theorem sizeOf_lt_of_mem [SizeOf α] {entries : Entries α} {key : String} {value : α}
    (h : (key, value) ∈ entries) : sizeOf value < sizeOf entries := by
  have := List.sizeOf_lt_of_mem h
  simp only [Prod.mk.sizeOf_spec] at this
  omega

/-- Two values of a map are smaller than the map together. -/
theorem sizeOf_get?_add_lt [SizeOf α] {entries : Entries α} {key other : String} {first second : α}
    (h : entries.get? key = some first) (h' : entries.get? other = some second)
    (different : key ≠ other) :
    sizeOf first + sizeOf other + sizeOf second + 3 < sizeOf entries := by
  induction entries with
  | nil => simp at h
  | cons entry rest ih =>
    obtain ⟨name, old⟩ := entry
    rw [get?_cons] at h h'
    simp only [List.cons.sizeOf_spec, Prod.mk.sizeOf_spec]
    -- The entry in front is one of the two, or both stand behind it.
    split at h
    · rename_i same
      rw [if_neg (same ▸ different)] at h'
      cases h
      have := List.sizeOf_lt_of_mem (mem_of_get? h')
      simp only [Prod.mk.sizeOf_spec] at this
      omega
    · split at h'
      · rename_i same
        subst same
        cases h'
        have := List.sizeOf_lt_of_mem (mem_of_get? h)
        simp only [Prod.mk.sizeOf_spec] at this
        omega
      · have := ih h h'
        omega

theorem sizeOf_insert_le [SizeOf α] (entries : Entries α) (key : String) (value : α) :
    sizeOf (entries.insert key value) ≤ sizeOf entries + sizeOf key + sizeOf value + 2 := by
  induction entries with
  | nil =>
    simp only [insert, List.cons.sizeOf_spec, List.nil.sizeOf_spec, Prod.mk.sizeOf_spec]
    omega
  | cons entry rest ih =>
    obtain ⟨name, old⟩ := entry
    rw [insert]
    split
    · simp only [List.cons.sizeOf_spec, Prod.mk.sizeOf_spec]
      omega
    · simp only [List.cons.sizeOf_spec]
      omega

end Entries

end HyperSchema
