import HyperSchema.Warning
import Mathlib.Data.List.Forall2

/-!
# Outcome — analyses that succeed or fail

What is known about the parts of an analysis that gives a result or an error.  This file defines:

* `ok_of_bind` and `Checked.ok_of_bind`, for one step after another, and `ok_of_map`, for a result
  that is changed;
* `Checked.result_bind_of_ok` and `Checked.warnings_bind_of_ok`, what one step after another gives;
* `forall₂_of_mapM`, for one step for each element of a list, and `mem_of_mapM`, for the results
  without their order;
* `exists_of_rel`, for optional values that are related;
* `error_of_bind`, `Checked.error_of_bind` and `error_of_mapM`, the step at which an analysis fails;
* `mapM_eq_error_iff`, the first element of a list at which it fails.
-/

namespace HyperSchema

variable {ε α β : Type}

theorem ok_of_bind {step : Except ε α} {next : α → Except ε β} {found : β}
    (h : step >>= next = .ok found) : ∃ first, step = .ok first ∧ next first = .ok found := by
  cases step with
  | error failure => cases h
  | ok first => exact ⟨first, rfl, h⟩

theorem ok_of_map {step : Except ε α} {made : α → β} {found : β} (h : step.map made = .ok found) :
    ∃ first, step = .ok first ∧ made first = found := by
  cases step with
  | error failure => cases h
  | ok first => exact ⟨first, rfl, Except.ok.inj h⟩

theorem ok_of_mapError {ε' : Type} {step : Except ε α} {other : ε → ε'} {found : α}
    (h : step.mapError other = .ok found) : step = .ok found := by
  cases step with
  | error failure => cases h
  | ok first => exact congrArg Except.ok (Except.ok.inj h)

theorem Checked.ok_of_bind {step : Checked α} {next : α → Checked β} {found : β}
    (h : (step >>= next).result = .ok found) :
    ∃ first, step.result = .ok first ∧ (next first).result = .ok found :=
  HyperSchema.ok_of_bind ((Checked.result_bind step next).symm.trans h)

theorem Checked.result_bind_of_ok {step : Checked α} {next : α → Checked β} {first : α}
    (h : step.result = .ok first) : (step >>= next).result = (next first).result := by
  rw [Checked.result_bind, h]
  rfl

theorem Checked.result_bind_of_error {step : Checked α} {next : α → Checked β} {e : SchemaError}
    (h : step.result = .error e) : (step >>= next).result = .error e := by
  rw [Checked.result_bind, h]
  rfl

@[simp] theorem Checked.warnings_pure (found : α) : (pure found : Checked α).warnings = [] := rfl

@[simp] theorem Checked.warnings_ofExcept (result : Except SchemaError α) :
    (ofExcept result).warnings = [] := rfl

@[simp] theorem Checked.warnings_liftM (step : Noted α) :
    (liftM step : Checked α).warnings = step.warnings := by
  show (step.warnings ++ []) = _
  exact List.append_nil _

/-- The warnings of a first step that succeeds stand in front of those of the next one. -/
theorem Checked.warnings_bind_of_ok {step : Checked α} {next : α → Checked β} {first : α}
    (h : step.result = .ok first) :
    (step >>= next).warnings = step.warnings ++ (next first).warnings := by
  show (ExceptT.run step >>= ExceptT.bindCont next : Noted _).warnings = _
  rw [Noted.warnings_bind]
  unfold Checked.result at h
  rw [h]
  rfl

/-- An analysis fails in its first step or behind it. -/
theorem error_of_bind {step : Except ε α} {next : α → Except ε β} {e : ε}
    (h : step >>= next = .error e) :
    step = .error e ∨ ∃ first, step = .ok first ∧ next first = .error e := by
  cases step with
  | error failure =>
      cases h
      exact .inl rfl
  | ok first => exact .inr ⟨first, rfl, h⟩

/-- Nothing fails in changing a result. -/
theorem error_of_map {step : Except ε α} {made : α → β} {e : ε} (h : step.map made = .error e) :
    step = .error e := by
  cases step with
  | error failure => exact congrArg Except.error (Except.error.inj h)
  | ok first => cases h

theorem map_eq_error_iff {step : Except ε α} {made : α → β} {e : ε} :
    step.map made = .error e ↔ step = .error e := by
  refine ⟨error_of_map, ?_⟩
  rintro rfl
  rfl

theorem error_of_mapError {ε' : Type} {step : Except ε α} {other : ε → ε'} {e : ε'}
    (h : step.mapError other = .error e) :
    ∃ failure, step = .error failure ∧ other failure = e := by
  cases step with
  | error failure => exact ⟨failure, rfl, Except.error.inj h⟩
  | ok first => cases h

theorem Checked.error_of_bind {step : Checked α} {next : α → Checked β} {e : SchemaError}
    (h : (step >>= next).result = .error e) :
    step.result = .error e ∨ ∃ first, step.result = .ok first ∧ (next first).result = .error e :=
  HyperSchema.error_of_bind ((Checked.result_bind step next).symm.trans h)

/-- Nothing fails in putting a result together. -/
theorem Checked.error_of_map {step : Checked α} {made : α → β} {e : SchemaError}
    (h : (step >>= fun first => pure (made first)).result = .error e) : step.result = .error e := by
  rcases Checked.error_of_bind h with failed | ⟨first, -, failed⟩
  · exact failed
  · cases failed

/-- Where each element gives a result, the results stand in the same order. -/
theorem forall₂_of_mapM {step : α → Except ε β} {list : List α} {results : List β}
    (h : list.mapM step = .ok results) :
    List.Forall₂ (fun element result => step element = .ok result) list results := by
  induction list generalizing results with
  | nil =>
      cases h
      exact .nil
  | cons element rest ih =>
      rw [List.mapM_cons] at h
      rcases ok_of_bind h with ⟨first, head, h⟩
      rcases ok_of_bind h with ⟨others, tail, h⟩
      cases h
      exact .cons head (ih tail)

theorem exists_of_forall₂ {R : α → β → Prop} {list : List α} {results : List β}
    (h : List.Forall₂ R list results) {element : α} (mem : element ∈ list) :
    ∃ result ∈ results, R element result := by
  induction h with
  | nil => cases mem
  | cons head _ ih =>
      rcases List.mem_cons.1 mem with rfl | mem
      · exact ⟨_, List.mem_cons_self, head⟩
      · rcases ih mem with ⟨result, inside, related⟩
        exact ⟨result, List.mem_cons_of_mem _ inside, related⟩

theorem exists_forall₂ {R : α → β → Prop} {list : List α}
    (each : ∀ element ∈ list, ∃ result, R element result) :
    ∃ results, List.Forall₂ R list results := by
  induction list with
  | nil => exact ⟨[], .nil⟩
  | cons element rest ih =>
      rw [List.forall_mem_cons] at each
      rcases each with ⟨⟨result, head⟩, each⟩
      rcases ih each with ⟨results, tail⟩
      exact ⟨result :: results, .cons head tail⟩

/-- What is there is related to what is there on the other side. -/
theorem exists_of_rel {R : α → β → Prop} {first : Option α} {second : Option β}
    (related : Option.Rel R first second) {value : α} (found : first = some value) :
    ∃ value', second = some value' ∧ R value value' := by
  subst found
  cases related with
  | some inner => exact ⟨_, rfl, inner⟩

/-- What is at a position came from what is at this position. -/
theorem getElem?_of_forall₂ {R : α → β → Prop} {list : List α} {results : List β}
    (h : List.Forall₂ R list results) {i : Nat} {result : β} (at_ : results[i]? = some result) :
    ∃ element, list[i]? = some element ∧ R element result := by
  induction h generalizing i with
  | nil => cases at_
  | cons head _ ih =>
      cases i with
      | zero =>
          cases at_
          exact ⟨_, rfl, head⟩
      | succ i => exact ih at_

/-- What is the same for an element and its result is the same for all of them. -/
theorem forall_iff_of_forall₂ {R : α → β → Prop} {p : α → Prop} {q : β → Prop}
    (same : ∀ element result, R element result → (p element ↔ q result)) {list : List α}
    {results : List β} (h : List.Forall₂ R list results) :
    (∀ element ∈ list, p element) ↔ ∀ result ∈ results, q result := by
  induction h with
  | nil => simp only [List.not_mem_nil, false_imp_iff, implies_true]
  | cons head _ ih => rw [List.forall_mem_cons, List.forall_mem_cons, same _ _ head, ih]

theorem map_eq_of_forall₂ {R : α → β → Prop} {γ : Type} {f : α → γ} {g : β → γ}
    (same : ∀ element result, R element result → g result = f element) {list : List α}
    {results : List β} (h : List.Forall₂ R list results) : results.map g = list.map f := by
  induction h with
  | nil => rfl
  | cons head _ ih => rw [List.map_cons, List.map_cons, same _ _ head, ih]

/-- What is made in two steps stands in the order of what it was made from. -/
theorem forall₂_trans {γ : Type} {R : α → β → Prop} {S : β → γ → Prop} {T : α → γ → Prop}
    (step : ∀ a b c, R a b → S b c → T a c) {list : List α} {between : List β} {results : List γ}
    (h : List.Forall₂ R list between) (h' : List.Forall₂ S between results) :
    List.Forall₂ T list results := by
  induction h generalizing results with
  | nil =>
      cases h'
      exact .nil
  | cons head _ ih =>
      cases h' with
      | cons head' tail' => exact .cons (step _ _ _ head head') (ih tail')

theorem ok_of_mem_mapM {step : α → Except ε β} {list : List α} {results : List β}
    (h : list.mapM step = .ok results) {element : α} (mem : element ∈ list) :
    ∃ result ∈ results, step element = .ok result :=
  exists_of_forall₂ (forall₂_of_mapM h) mem

theorem mem_of_mapM {step : α → Except ε β} {list : List α} {results : List β}
    (h : list.mapM step = .ok results) {result : β} (mem : result ∈ results) :
    ∃ element ∈ list, step element = .ok result :=
  exists_of_forall₂ (forall₂_of_mapM h).flip mem

/-- One of the elements fails. -/
theorem error_of_mapM {step : α → Except ε β} {list : List α} {e : ε}
    (h : list.mapM step = .error e) : ∃ element ∈ list, step element = .error e := by
  induction list with
  | nil => cases h
  | cons element rest ih =>
      rw [List.mapM_cons] at h
      rcases error_of_bind h with failed | ⟨first, -, h⟩
      · exact ⟨element, List.mem_cons_self, failed⟩
      · rcases error_of_bind h with failed | ⟨others, -, h⟩
        · rcases ih failed with ⟨other, mem, failed⟩
          exact ⟨other, List.mem_cons_of_mem _ mem, failed⟩
        · cases h

/-- The error is that of the first element that fails. -/
theorem mapM_eq_error_iff {step : α → Except ε β} {fails : α → Bool}
    (failing : ∀ element, fails element = true ↔ ∃ e, step element = .error e) {list : List α}
    {e : ε} :
    list.mapM step = .error e ↔
      ∃ element, list.find? fails = some element ∧ step element = .error e := by
  induction list with
  | nil => exact iff_of_false nofun fun ⟨_, found, _⟩ => nomatch found
  | cons element rest ih =>
      rw [List.mapM_cons, List.find?_cons]
      cases made : step element with
      | error e' =>
          rw [(failing element).2 ⟨e', made⟩]
          constructor
          · rintro ⟨⟩
            exact ⟨element, rfl, made⟩
          · rintro ⟨_, ⟨⟩, failed⟩
            cases made.symm.trans failed
            rfl
      | ok result =>
          have succeeds : fails element = false := by
            rw [← Bool.not_eq_true, failing]
            rintro ⟨e', failed⟩
            cases made.symm.trans failed
          rw [succeeds]
          refine Iff.trans ?_ ih
          cases rest.mapM step with
          | error e' => exact Iff.rfl
          | ok others => exact iff_of_false nofun nofun

end HyperSchema
