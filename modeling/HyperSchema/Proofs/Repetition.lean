import Mathlib.Data.List.Basic

/-!
# Repetition — lists with each element where it first occurs

How leaving out repeated elements goes together with other steps.  This file shows:

* `eraseDups_filter`: what is left out by a property can be left out before or after;
* `eraseDups_eraseDups`: leaving out twice is leaving out once;
* `eraseDups_append_eraseDups`: the parts of a list may go first;
* `nodup_eraseDups`: no element is left twice, and `eraseDups_of_nodup`: nothing else is left out;
* `foldl_append_new`: adding to a list what it lacks, one by one.
-/

namespace HyperSchema

variable {α : Type} [BEq α] [LawfulBEq α]

theorem eraseDups_filter (p : α → Bool) (list : List α) :
    (list.filter p).eraseDups = list.eraseDups.filter p := by
  match list with
  | [] => rfl
  | first :: rest =>
      have ih := eraseDups_filter p (rest.filter fun other => !other == first)
      rw [List.eraseDups_cons, List.filter_cons, List.filter_cons, ← ih, List.filter_filter]
      cases kept : p first with
      | true =>
          rw [if_pos rfl, if_pos rfl, List.eraseDups_cons, List.filter_filter]
          simp only [Bool.and_comm]
      | false =>
          -- What is kept is not the first element, so nothing changes by leaving that out.
          have other (element : α) : (p element && !element == first) = p element := by
            cases same : element == first with
            | true => rw [eq_of_beq same, kept]; rfl
            | false => simp
          simp only [Bool.false_eq_true, if_false, other]
termination_by list.length
decreasing_by exact Nat.lt_succ_of_le (List.length_filter_le _ _)

theorem eraseDups_eraseDups (list : List α) : list.eraseDups.eraseDups = list.eraseDups := by
  match list with
  | [] => rfl
  | first :: rest =>
      have ih := eraseDups_eraseDups (rest.filter fun other => !other == first)
      rw [List.eraseDups_cons, List.eraseDups_cons, ← eraseDups_filter, List.filter_filter]
      simp only [Bool.and_self, ih]
termination_by list.length
decreasing_by exact Nat.lt_succ_of_le (List.length_filter_le _ _)

theorem eraseDups_append_eraseDups (list others : List α) :
    (list.eraseDups ++ others.eraseDups).eraseDups = (list ++ others).eraseDups := by
  have same : others.eraseDups.removeAll list.eraseDups = (others.removeAll list).eraseDups := by
    rw [List.removeAll, List.removeAll, eraseDups_filter]
    simp only [List.elem_eq_mem, List.mem_eraseDups]
  rw [List.eraseDups_append, List.eraseDups_append, eraseDups_eraseDups, same, eraseDups_eraseDups]

theorem eraseDups_append_of_eraseDups (list others : List α) :
    (list.eraseDups ++ others).eraseDups = (list ++ others).eraseDups := by
  rw [← eraseDups_append_eraseDups, eraseDups_eraseDups, eraseDups_append_eraseDups]

theorem nodup_eraseDups (list : List α) : list.eraseDups.Nodup := by
  match list with
  | [] => exact List.nodup_nil
  | first :: rest =>
      rw [List.eraseDups_cons]
      refine List.nodup_cons.2 ⟨fun mem => ?_, nodup_eraseDups _⟩
      rw [List.mem_eraseDups, List.mem_filter] at mem
      simp at mem
termination_by list.length
decreasing_by exact Nat.lt_succ_of_le (List.length_filter_le _ _)

theorem eraseDups_of_nodup {list : List α} (distinct : list.Nodup) : list.eraseDups = list := by
  induction list with
  | nil => rfl
  | cons first rest ih =>
      rcases List.nodup_cons.1 distinct with ⟨fresh, distinct⟩
      have kept : (rest.filter fun other => !other == first) = rest := by
        refine List.filter_eq_self.2 fun other mem => ?_
        simpa using fun same : other = first => fresh (same ▸ mem)
      rw [List.eraseDups_cons, kept, ih distinct]

/-- Elements that a list lacks are added at the end, each where it first occurs. -/
theorem foldl_append_new (list others : List α) :
    others.foldl (fun found element => if element ∈ found then found else found ++ [element])
      list = list ++ (others.removeAll list).eraseDups := by
  induction others generalizing list with
  | nil => exact (List.append_nil _).symm
  | cons first rest ih =>
      rw [List.foldl_cons, ih, List.cons_removeAll]
      by_cases known : first ∈ list
      · rw [if_pos known, if_neg (by simpa using known)]
      · have kept : rest.removeAll (list ++ [first]) =
            (rest.removeAll list).filter fun other => !other == first := by
          rw [List.removeAll, List.removeAll, List.filter_filter]
          refine List.filter_congr fun other _ => ?_
          rw [Bool.eq_iff_iff]
          simp [and_comm]
        rw [if_neg known, if_pos (by simpa using known), List.eraseDups_cons, kept,
          List.append_assoc, List.singleton_append]

end HyperSchema
