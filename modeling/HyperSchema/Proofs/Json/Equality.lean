import HyperSchema.Proofs.Json.Part

/-!
# Equality — comparing values decides whether they are equal

This file defines:

* `Json.beq_eq_true_iff`: structural equality is equality;
* the instances that let equations between values be decided.
-/

namespace HyperSchema.Json

theorem beqItems_iff_eq {items : List Json}
    (each : ∀ item ∈ items, ∀ other : Json, item.beq other = true ↔ item = other)
    (others : List Json) : beqItems items others = true ↔ items = others := by
  induction items generalizing others with
  | nil => cases others <;> simp [beqItems]
  | cons item rest ih =>
      cases others with
      | nil => simp [beqItems]
      | cons other others =>
          rw [beqItems, Bool.and_eq_true, each item List.mem_cons_self,
            ih (fun item mem => each item (List.mem_cons_of_mem _ mem)), List.cons.injEq]

theorem beqMembers_iff_eq {members : List (String × Json)}
    (each : ∀ entry ∈ members, ∀ other : Json, entry.2.beq other = true ↔ entry.2 = other)
    (others : List (String × Json)) : beqMembers members others = true ↔ members = others := by
  induction members generalizing others with
  | nil => cases others <;> simp [beqMembers]
  | cons entry rest ih =>
      rcases entry with ⟨name, value⟩
      cases others with
      | nil => simp [beqMembers]
      | cons other others =>
          rcases other with ⟨name', value'⟩
          rw [beqMembers, Bool.and_eq_true, Bool.and_eq_true, beq_iff_eq,
            each (name, value) List.mem_cons_self,
            ih (fun entry mem => each entry (List.mem_cons_of_mem _ mem)), List.cons.injEq,
            Prod.mk.injEq]

/-- Structural equality is equality. -/
theorem beq_eq_true_iff (value other : Json) : value.beq other = true ↔ value = other := by
  induction value using induct generalizing other with
  | null => cases other <;> simp [beq]
  | bool value => cases other <;> simp [beq]
  | number value => cases other <;> simp [beq]
  | string text => cases other <;> simp [beq]
  | array items each =>
      cases other with
      | array others => rw [beq, beqItems_iff_eq each, array.injEq]
      | _ => simp [beq]
  | object members each =>
      cases other with
      | object others => rw [beq, beqMembers_iff_eq each, object.injEq]
      | _ => simp [beq]

instance : LawfulBEq Json where
  eq_of_beq := (beq_eq_true_iff _ _).1
  rfl := (beq_eq_true_iff _ _).2 rfl

instance : DecidableEq Json :=
  fun value other => decidable_of_iff (value.beq other = true) (beq_eq_true_iff value other)

end HyperSchema.Json
