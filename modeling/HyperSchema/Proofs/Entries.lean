import HyperSchema.Entries
import HyperSchema.Proofs.Repetition

/-!
# Entries — maps in which no name is repeated

Where every name of a map is distinct, an entry and what is found under its name are the same.  This
file shows:

* `Entries.get?_of_mem` and `Entries.get?_eq_none_iff`, what is found under a name;
* `Entries.insert_insert`: of two values under one name, the second one stays;
* `Entries.nodup_keys_insert`, `Entries.ofList_spec` and `Entries.nodup_keys_swapErase`: names stay
  distinct, as they do in `Entries.keys_zip_sublist`;
* `Entries.keys_ofList` and `Entries.get?_ofList`: of a repeated name the first place and the last
  value are collected;
* `Entries.get?_swapErase_self`: a name that is removed is gone, wherever its gap was filled from.
-/

namespace HyperSchema

namespace Entries

variable {α : Type}

/-! ## Reading -/

theorem get?_eq_none_iff {entries : Entries α} {key : String} :
    entries.get? key = none ↔ key ∉ entries.keys := by
  rw [← contains_iff, contains, Bool.not_eq_true, Option.isSome_eq_false_iff,
    Option.isNone_iff_eq_none]

/-- Where no name is repeated, every entry is found. -/
theorem get?_of_mem {entries : Entries α} (distinct : entries.keys.Nodup) {name : String}
    {value : α} (mem : (name, value) ∈ entries) : entries.get? name = some value := by
  induction entries with
  | nil => cases mem
  | cons entry rest ih =>
      rcases entry with ⟨first, old⟩
      rcases List.nodup_cons.1 distinct with ⟨fresh, distinct⟩
      rw [get?_cons]
      rcases List.mem_cons.1 mem with same | mem
      · cases same
        exact if_pos rfl
      · rw [if_neg, ih distinct mem]
        rintro rfl
        exact fresh (List.mem_map.2 ⟨_, mem, rfl⟩)

/-! ## Writing -/

theorem nodup_keys_nil : (keys ([] : Entries α)).Nodup := List.nodup_nil

theorem nodup_keys_concat {entries : Entries α} (distinct : entries.keys.Nodup) {key : String}
    (fresh : key ∉ entries.keys) (value : α) : (keys (entries ++ [(key, value)])).Nodup := by
  have separate : ∀ name ∈ entries.keys, ∀ other ∈ [key], name ≠ other := by
    rintro name mem other single rfl
    exact fresh (List.mem_singleton.1 single ▸ mem)
  rw [keys, List.map_append]
  exact List.nodup_append.2 ⟨distinct, by simp, separate⟩

theorem nodup_keys_insert {entries : Entries α} (distinct : entries.keys.Nodup) (key : String)
    (value : α) : (entries.insert key value).keys.Nodup := by
  rw [keys_insert]
  split
  · exact distinct
  · rename_i fresh
    have concat := nodup_keys_concat distinct fresh value
    rwa [keys, List.map_append] at concat

/-- What is stored under a new name goes to the end. -/
theorem insert_of_get?_eq_none {entries : Entries α} {key : String}
    (fresh : entries.get? key = none) (value : α) :
    entries.insert key value = entries ++ [(key, value)] := by
  induction entries with
  | nil => rfl
  | cons entry rest ih =>
      rcases entry with ⟨name, old⟩
      rw [get?_cons] at fresh
      split at fresh
      · cases fresh
      · rename_i other
        rw [insert, if_neg other, ih fresh, List.cons_append]

/-- Of two values under one name, the second one stays. -/
theorem insert_insert (entries : Entries α) (key : String) (first second : α) :
    (entries.insert key first).insert key second = entries.insert key second := by
  induction entries with
  | nil => simp only [insert, if_pos]
  | cons entry rest ih =>
      rcases entry with ⟨name, old⟩
      by_cases same : name = key
      · simp only [insert, if_pos same]
      · simp only [insert, if_neg same, ih]

/-- What is collected has distinct names, and its entries are among those collected. -/
theorem ofList_spec (pairs : List (String × α)) :
    (ofList pairs).keys.Nodup ∧ ofList pairs ⊆ pairs := by
  -- What was collected before stays distinct, so the claim is made for any start.
  have collected (pairs : List (String × α)) (entries : Entries α) (distinct : entries.keys.Nodup) :
      let all := pairs.foldl (fun entries pair => insert entries pair.1 pair.2) entries
      (keys all).Nodup ∧ all ⊆ entries ++ pairs := by
    induction pairs generalizing entries with
    | nil => exact ⟨distinct, by simp⟩
    | cons pair rest ih =>
        rcases ih (entries.insert pair.1 pair.2) (nodup_keys_insert distinct _ _) with
          ⟨nodup, inside⟩
        refine ⟨nodup, fun entry mem => ?_⟩
        rcases List.mem_append.1 (inside mem) with mem | mem
        · rcases mem_of_mem_insert mem with rfl | mem
          · simp
          · exact List.mem_append_left _ mem
        · simp [mem]
  exact collected pairs [] List.nodup_nil

/-- The names after some insertions: the new ones follow in the order in which they first occur. -/
theorem keys_foldl_insert (pairs : List (String × α)) (entries : Entries α) :
    keys (pairs.foldl (fun entries pair => insert entries pair.1 pair.2) entries) =
      entries.keys ++ ((keys pairs).removeAll entries.keys).eraseDups := by
  have names : keys pairs = pairs.map (·.1) := rfl
  rw [← foldl_append_new, names, List.foldl_map]
  exact (List.foldl_hom keys fun entries pair => (keys_insert entries pair.1 pair.2).symm).symm

/-- What is found after some insertions: what was inserted last, else what was there. -/
theorem get?_foldl_insert (pairs : List (String × α)) (entries : Entries α) (key : String) :
    get? (pairs.foldl (fun entries pair => insert entries pair.1 pair.2) entries) key =
      (get? pairs.reverse key).or (entries.get? key) := by
  induction pairs generalizing entries with
  | nil => rfl
  | cons pair rest ih =>
      rw [List.foldl_cons, ih, get?_insert, List.reverse_cons, get?_append, Option.or_assoc]
      congr 1
      rw [get?_cons]
      split <;> rfl

/-- What is collected has each name where it first occurs. -/
theorem keys_ofList (pairs : List (String × α)) :
    (ofList pairs).keys = (keys pairs).eraseDups := by
  rw [ofList, keys_foldl_insert]
  exact congrArg List.eraseDups List.removeAll_nil

/-- What is collected has the last value of each name. -/
theorem get?_ofList (pairs : List (String × α)) (key : String) :
    (ofList pairs).get? key = get? pairs.reverse key := by
  rw [ofList, get?_foldl_insert, get?_nil, Option.or_none]

/-- Where names meet values, no name comes in anew. -/
theorem keys_zip_sublist (names : List String) (values : List α) :
    (keys (names.zip values)).Sublist names := by
  induction names generalizing values with
  | nil => exact .slnil
  | cons name names ih =>
      cases values with
      | nil => exact List.nil_sublist _
      | cons value values => exact (ih values).cons_cons name

/-! ## Removing -/

theorem erase_sublist (entries : Entries α) (key : String) :
    (entries.erase key).Sublist entries := by
  induction entries with
  | nil => exact .slnil
  | cons entry rest ih =>
      rcases entry with ⟨name, value⟩
      rw [erase]
      split
      · exact List.sublist_cons_self _ rest
      · exact ih.cons_cons _

theorem not_mem_keys_erase {entries : Entries α} (distinct : entries.keys.Nodup) (key : String) :
    key ∉ (entries.erase key).keys := by
  induction entries with
  | nil => exact List.not_mem_nil
  | cons entry rest ih =>
      rcases entry with ⟨name, value⟩
      rcases List.nodup_cons.1 distinct with ⟨fresh, distinct⟩
      rw [erase]
      split
      · rename_i same
        exact same ▸ fresh
      · rename_i other
        intro mem
        rcases List.mem_cons.1 mem with same | mem
        · exact other same.symm
        · exact ih distinct mem

/-- The entries that are left are the same whether the gap closes or is filled from the end. -/
theorem swapErase_perm (entries : Entries α) (key : String) :
    (entries.swapErase key).Perm (entries.erase key) := by
  induction entries with
  | nil => exact .nil
  | cons entry rest ih =>
      rcases entry with ⟨name, value⟩
      rw [swapErase, erase]
      split
      · cases found : rest.getLast? with
        | none => rw [List.getLast?_eq_none_iff.1 found]
        | some last =>
            rcases List.getLast?_eq_some_iff.1 found with ⟨front, rfl⟩
            rw [List.dropLast_concat]
            exact (List.perm_append_singleton last front).symm
      · exact ih.cons _

theorem nodup_keys_swapErase {entries : Entries α} (distinct : entries.keys.Nodup) (key : String) :
    (entries.swapErase key).keys.Nodup := by
  have erased : (entries.erase key).keys.Nodup :=
    distinct.sublist ((erase_sublist entries key).map _)
  exact ((swapErase_perm entries key).map _).nodup_iff.2 erased

theorem get?_swapErase_self {entries : Entries α} (distinct : entries.keys.Nodup) (key : String) :
    (entries.swapErase key).get? key = none := by
  rw [get?_eq_none_iff]
  intro mem
  exact not_mem_keys_erase distinct key (((swapErase_perm entries key).map _).mem_iff.1 mem)

end Entries

end HyperSchema
