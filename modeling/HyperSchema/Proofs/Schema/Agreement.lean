import HyperSchema.Proofs.Json.Equality
import HyperSchema.Proofs.Schema.Places

/-!
# Agreement — both walks through a schema make the same calls

Replacing the objects of a schema and collecting from them are two walks that call a function at
every object.  This file defines:

* `Schema.Stateful`, an analysis that may stop with an error and keeps a state;
* `Schema.noting`, a function that also notes its calls;
* `Schema.InStep`, two analyses that make the same calls and stop at the same error, with the laws
  for one step after another;
* `Schema.mapObjects_inStep_gatherObjects`: the two walks are in step if the functions they call
  fail at the same objects;
* `Schema.gatherObjects_eq_mapM_calls`: what is collected are the results of the calls, in order;
* `Schema.fails_iff_firstStray`: with a function that never fails, the first stray leaf is the
  error;
* `Schema.walks_agree`, all of this together.
-/

namespace HyperSchema.Schema

variable {σ τ α β γ δ : Type}

/-! ## Analyses with a state -/

/-- An analysis that may stop with an error and keeps a state, also when it stops. -/
abbrev Stateful (σ α : Type) := ExceptT SchemaError (StateM σ) α

/-- The result of an analysis that starts in a state, and the state in which it ends. -/
def Stateful.outcome (x : Stateful σ α) (s : σ) : Except SchemaError α × σ :=
  Id.run (StateT.run (ExceptT.run x) s)

namespace Stateful

@[simp] theorem outcome_pure (a : α) (s : σ) : outcome (pure a) s = (.ok a, s) := rfl

@[simp] theorem outcome_throw (e : SchemaError) (s : σ) :
    outcome (throw e : Stateful σ α) s = (.error e, s) := rfl

theorem outcome_bind_ok {x : Stateful σ α} {next : α → Stateful σ β} {s s' : σ} {a : α}
    (h : x.outcome s = (.ok a, s')) : outcome (x >>= next) s = (next a).outcome s' := by
  show Id.run (StateT.run (ExceptT.run x >>= ExceptT.bindCont next) s) = _
  rw [StateT.run_bind]
  show Id.run (StateT.run (ExceptT.bindCont next (x.outcome s).1) (x.outcome s).2) = _
  rw [h]
  rfl

theorem outcome_bind_error {x : Stateful σ α} {next : α → Stateful σ β} {s s' : σ} {e : SchemaError}
    (h : x.outcome s = (.error e, s')) : outcome (x >>= next) s = (.error e, s') := by
  show Id.run (StateT.run (ExceptT.run x >>= ExceptT.bindCont next) s) = _
  rw [StateT.run_bind]
  show Id.run (StateT.run (ExceptT.bindCont next (x.outcome s).1) (x.outcome s).2) = _
  rw [h]
  rfl

theorem ok_of_bind {x : Stateful σ α} {next : α → Stateful σ β} {s s'' : σ} {b : β}
    (ran : (x >>= next).outcome s = (.ok b, s'')) :
    ∃ a s', x.outcome s = (.ok a, s') ∧ (next a).outcome s' = (.ok b, s'') := by
  rcases first : x.outcome s with ⟨result, s'⟩
  cases result with
  | error e =>
      rw [outcome_bind_error first] at ran
      cases ran
  | ok a =>
      rw [outcome_bind_ok first] at ran
      exact ⟨a, s', rfl, ran⟩

end Stateful

/-! ## Calls -/

/-- A call at an object: its members and its address. -/
abbrev Call := List (String × Json) × String

/-- The function that also notes its calls, those that fail included. -/
def noting (f : List (String × Json) → String → Stateful σ α) (members : List (String × Json))
    (path : String) : Stateful (σ × List Call) α :=
  ExceptT.mk fun (s, calls) =>
    let (result, s) := (f members path).outcome s
    (result, s, calls ++ [(members, path)])

theorem outcome_noting (f : List (String × Json) → String → Stateful σ α)
    (members : List (String × Json)) (path : String) (s : σ) (calls : List Call) :
    (noting f members path).outcome (s, calls) =
      (((f members path).outcome s).1, ((f members path).outcome s).2, calls ++ [(members, path)]) :=
  rfl

/-! ## Walks in step -/

/-- Two analyses, each beside the one without notes: the notes change nothing else, the same calls
are noted, and one stops at an error if and only if the other stops at it. -/
def InStep (x : Stateful (σ × List Call) α) (x₀ : Stateful σ α) (y : Stateful (τ × List Call) β)
    (y₀ : Stateful τ β) : Prop :=
  ∀ s t, ∃ calls,
    (∀ before, x.outcome (s, before) =
      ((x₀.outcome s).1, (x₀.outcome s).2, before ++ calls)) ∧
    (∀ before, y.outcome (t, before) =
      ((y₀.outcome t).1, (y₀.outcome t).2, before ++ calls)) ∧
    ∀ e, (x₀.outcome s).1 = .error e ↔ (y₀.outcome t).1 = .error e

namespace InStep

theorem pure (a : α) (b : β) :
    InStep (Pure.pure a : Stateful (σ × List Call) α) (Pure.pure a)
      (Pure.pure b : Stateful (τ × List Call) β) (Pure.pure b) := by
  intro s t
  exact ⟨[], fun before => by simp, fun before => by simp, fun e => by simp⟩

theorem throw (e : SchemaError) :
    InStep (MonadExcept.throw e : Stateful (σ × List Call) α) (MonadExcept.throw e)
      (MonadExcept.throw e : Stateful (τ × List Call) β) (MonadExcept.throw e) := by
  intro s t
  exact ⟨[], fun before => by simp, fun before => by simp, fun e => by simp⟩

/-- Functions that fail at the same objects are in step at every object. -/
theorem call {f : List (String × Json) → String → Stateful σ α}
    {g : List (String × Json) → String → Stateful τ β}
    (same : ∀ members path s t e,
      ((f members path).outcome s).1 = .error e ↔ ((g members path).outcome t).1 = .error e)
    (members : List (String × Json)) (path : String) :
    InStep (noting f members path) (f members path) (noting g members path) (g members path) := by
  intro s t
  exact ⟨[(members, path)], fun before => outcome_noting f members path s before,
    fun before => outcome_noting g members path t before, same members path s t⟩

/-- One step after another: what follows is reached by both or by none. -/
theorem bind {x : Stateful (σ × List Call) α} {x₀ : Stateful σ α} {y : Stateful (τ × List Call) β}
    {y₀ : Stateful τ β} {next : α → Stateful (σ × List Call) γ} {next₀ : α → Stateful σ γ}
    {then_ : β → Stateful (τ × List Call) δ} {then₀ : β → Stateful τ δ}
    (first : InStep x x₀ y y₀) (rest : ∀ a b, InStep (next a) (next₀ a) (then_ b) (then₀ b)) :
    InStep (x >>= next) (x₀ >>= next₀) (y >>= then_) (y₀ >>= then₀) := by
  intro s t
  rcases first s t with ⟨calls, noted, noted', stops⟩
  rcases left : x₀.outcome s with ⟨result, s'⟩
  rcases right : y₀.outcome t with ⟨result', t'⟩
  rw [left] at noted stops
  rw [right] at noted' stops
  cases result with
  | error e =>
      -- Both stop here, so that neither makes the calls of its second step.
      have failed : result' = .error e := (stops e).1 rfl
      subst failed
      refine ⟨calls, fun before => ?_, fun before => ?_, fun e' => ?_⟩
      · rw [Stateful.outcome_bind_error (noted before), Stateful.outcome_bind_error left]
      · rw [Stateful.outcome_bind_error (noted' before), Stateful.outcome_bind_error right]
      · rw [Stateful.outcome_bind_error left, Stateful.outcome_bind_error right]
        simp only [Except.error.injEq]
  | ok a =>
      cases result' with
      | error e => cases (stops e).2 rfl
      | ok b =>
          rcases rest a b s' t' with ⟨others, noted₂, noted₂', stops₂⟩
          refine ⟨calls ++ others, fun before => ?_, fun before => ?_, fun e => ?_⟩
          · rw [Stateful.outcome_bind_ok (noted before), Stateful.outcome_bind_ok left, noted₂,
              List.append_assoc]
          · rw [Stateful.outcome_bind_ok (noted' before), Stateful.outcome_bind_ok right, noted₂',
              List.append_assoc]
          · rw [Stateful.outcome_bind_ok left, Stateful.outcome_bind_ok right]
            exact stops₂ e

/-- Giving a result of another form changes no calls. -/
theorem map {x : Stateful (σ × List Call) α} {x₀ : Stateful σ α} {y : Stateful (τ × List Call) β}
    {y₀ : Stateful τ β} (first : InStep x x₀ y y₀) (made : α → γ) :
    InStep (x >>= fun a => Pure.pure (made a)) (x₀ >>= fun a => Pure.pure (made a)) y y₀ := by
  have both : InStep (x >>= fun a => Pure.pure (made a)) (x₀ >>= fun a => Pure.pure (made a))
      (y >>= Pure.pure) (y₀ >>= Pure.pure) :=
    first.bind fun a b => pure (made a) b
  rwa [bind_pure, bind_pure] at both

end InStep

section Walks

variable {f : List (String × Json) → String → Stateful σ (List (String × Json))}
  {g : List (String × Json) → String → Stateful τ α}

/-- The two walks are in step if the functions that they call fail at the same objects. -/
theorem mapObjects_inStep_gatherObjects
    (same : ∀ members path s t e,
      ((f members path).outcome s).1 = .error e ↔ ((g members path).outcome t).1 = .error e)
    (schema : Json) (path : String) :
    InStep (mapObjects (noting f) schema path) (mapObjects f schema path)
      (gatherObjects (noting g) schema path) (gatherObjects g schema path) := by
  refine visits.induct
    (fun schema path => InStep (mapObjects (noting f) schema path) (mapObjects f schema path)
      (gatherObjects (noting g) schema path) (gatherObjects g schema path))
    (fun schemas path i => InStep (mapTuple (noting f) schemas path i) (mapTuple f schemas path i)
      (gatherTuple (noting g) schemas path i) (gatherTuple g schemas path i))
    (fun branches path i =>
      InStep (mapBranches (noting f) branches path i) (mapBranches f branches path i)
        (gatherBranches (noting g) branches path i) (gatherBranches g branches path i))
    ?reference ?object ?union ?items ?tuple ?missing ?leaf ?noPlace ?place ?noBranch ?branch
    schema path
  case reference =>
      intro schema path target shape
      rw [mapObjects_eq, mapObjects_eq, gatherObjects_eq, gatherObjects_eq, shape]
      exact .pure _ _
  case object =>
      intro schema path members shape
      rw [mapObjects_eq, mapObjects_eq, gatherObjects_eq, gatherObjects_eq, shape]
      exact (InStep.call same members path).bind fun made found => .pure _ _
  case union =>
      intro schema path members branches shape ih
      rw [mapObjects_eq, mapObjects_eq, gatherObjects_eq, gatherObjects_eq, shape]
      exact ih.map _
  case items =>
      intro schema path members item shape ih
      rw [mapObjects_eq, mapObjects_eq, gatherObjects_eq, gatherObjects_eq, shape]
      exact ih.map _
  case tuple =>
      intro schema path members schemas shape ih
      rw [mapObjects_eq, mapObjects_eq, gatherObjects_eq, gatherObjects_eq, shape]
      exact ih.map _
  case missing =>
      intro schema path members shape
      rw [mapObjects_eq, mapObjects_eq, gatherObjects_eq, gatherObjects_eq, shape]
      exact .pure _ _
  case leaf =>
      intro schema path shape
      rw [mapObjects_eq, mapObjects_eq, gatherObjects_eq, gatherObjects_eq, shape]
      exact .throw _
  case noPlace =>
      intro path i
      rw [mapTuple, mapTuple, gatherTuple, gatherTuple]
      exact .pure _ _
  case place =>
      intro path i schema rest ih ihRest
      rw [mapTuple, mapTuple, gatherTuple, gatherTuple]
      exact ih.bind fun made found => ihRest.bind fun others others' => .pure _ _
  case noBranch =>
      intro path i
      rw [mapBranches, mapBranches, gatherBranches, gatherBranches]
      exact .pure _ _
  case branch =>
      intro path i branch rest ih ihRest
      rw [mapBranches, mapBranches, gatherBranches, gatherBranches]
      -- Both walks pass over a branch that admits nothing but `null`.
      split
      · exact (InStep.pure _ _).bind fun made found => ihRest.bind fun others others' => .pure _ _
      · exact ih.bind fun made found => ihRest.bind fun others others' => .pure _ _

/-! ## Results -/

/-- The stops of a walk that succeeds are its calls. -/
theorem mapM_calls {stops : List Visit} {t t' : τ} {before after : List Call} {results : List α}
    (h : (stops.mapM (Visit.run (noting g))).outcome (t, before) = (.ok results, t', after)) :
    ∃ calls, after = before ++ calls ∧
      (calls.mapM fun call => g call.1 call.2).outcome t = (.ok results, t') := by
  induction stops generalizing t before results with
  | nil =>
      cases h
      exact ⟨[], (List.append_nil _).symm, rfl⟩
  | cons stop rest ih =>
      rw [List.mapM_cons] at h
      cases stop with
      | stray schema path => cases h
      | object members path =>
          rcases Stateful.ok_of_bind h with ⟨a, ⟨s, log⟩, noted, h⟩
          rcases Stateful.ok_of_bind h with ⟨others, ⟨s', log'⟩, run, h⟩
          cases h
          -- The call is noted behind those before, and has the result that it has without notes.
          rcases called : (g members path).outcome t with ⟨result, s₁⟩
          have logged := (outcome_noting g members path t before).symm.trans noted
          rw [called] at logged
          cases logged
          rcases ih run with ⟨calls, rfl, gathered⟩
          refine ⟨(members, path) :: calls, by simp, ?_⟩
          rw [List.mapM_cons, Stateful.outcome_bind_ok called, Stateful.outcome_bind_ok gathered]
          rfl

/-- What is collected are the results of the calls, in order. -/
theorem gatherObjects_eq_mapM_calls {schema : Json} {path : String} {t t' : τ} {calls : List Call}
    {results : List α}
    (h : (gatherObjects (noting g) schema path).outcome (t, []) = (.ok results, t', calls)) :
    (calls.mapM fun call => g call.1 call.2).outcome t = (.ok results, t') := by
  rw [gatherObjects_eq_mapM (fun _ _ => rfl)] at h
  rcases mapM_calls h with ⟨calls', same, gathered⟩
  rw [List.nil_append] at same
  exact same ▸ gathered

/-! ## Errors -/

/-- Where no call fails, the first stray stop is where a walk ends. -/
theorem mapM_fails_iff (never : ∀ members path s, ∃ a, ((g members path).outcome s).1 = .ok a)
    (stops : List Visit) (t : τ) (e : SchemaError) :
    ((stops.mapM (Visit.run g)).outcome t).1 = .error e ↔
      ∃ schema path, stops.findSome? Visit.stray? = some (schema, path) ∧
        e = SchemaError.shapeAt path schema := by
  induction stops generalizing t with
  | nil => exact iff_of_false nofun fun ⟨_, _, first, _⟩ => nomatch first
  | cons stop rest ih =>
      rw [List.mapM_cons]
      cases stop with
      | stray schema path =>
          have thrown : (Visit.run g (.stray schema path)).outcome t =
              (.error (SchemaError.shapeAt path schema), t) := rfl
          rw [Stateful.outcome_bind_error thrown, List.findSome?_cons]
          constructor
          · rintro ⟨⟩
            exact ⟨schema, path, rfl, rfl⟩
          · rintro ⟨_, _, ⟨⟩, rfl⟩
            rfl
      | object members path =>
          rcases never members path t with ⟨a, isOk⟩
          -- The call succeeds, so the error is one of the stops behind, in the state it leaves.
          have called : (Visit.run g (.object members path)).outcome t =
              (.ok a, ((g members path).outcome t).2) := Prod.ext isOk rfl
          rw [Stateful.outcome_bind_ok called, List.findSome?_cons]
          refine Iff.trans ?_ (ih ((g members path).outcome t).2)
          rcases run : (rest.mapM (Visit.run g)).outcome ((g members path).outcome t).2 with
            ⟨others, s⟩
          cases others with
          | error e' => rw [Stateful.outcome_bind_error run]
          | ok others =>
              rw [Stateful.outcome_bind_ok run]
              exact iff_of_false nofun nofun

/-- Where no call fails, a walk ends at the first stray place. -/
theorem fails_iff_firstStray
    (never : ∀ members path s, ∃ a, ((g members path).outcome s).1 = .ok a) (schema : Json)
    (path : String) (t : τ) (e : SchemaError) :
    ((gatherObjects g schema path).outcome t).1 = .error e ↔
      ∃ stray, Place.FirstStray ⟨schema, path, false⟩ stray ∧
        e = SchemaError.shapeAt stray.path stray.schema := by
  rw [gatherObjects_eq_mapM (fun _ _ => rfl), mapM_fails_iff never]
  have first (schema' : Json) (path' : String) :
      (visits schema path).findSome? Visit.stray? = some (schema', path') ↔ _ :=
    Place.firstStray_iff ⟨schema, path, false⟩ schema' path'
  simp only [first]
  constructor
  · rintro ⟨_, _, ⟨stray, isFirst, rfl, rfl⟩, rfl⟩
    exact ⟨stray, isFirst, rfl⟩
  · rintro ⟨stray, isFirst, rfl⟩
    exact ⟨_, _, ⟨stray, isFirst, rfl, rfl⟩, rfl⟩

/-- Both walks make the same calls and stop at the same error, if the functions that they call fail
at the same objects; what is collected are the results of the calls, in order.  With functions that
never fail, the walks stop if some place is stray, and then at the first such place. -/
theorem walks_agree
    (same : ∀ members path s t e,
      ((f members path).outcome s).1 = .error e ↔ ((g members path).outcome t).1 = .error e)
    (schema : Json) (path : String) (s : σ) (t : τ) :
    ∃ calls : List Call,
      (mapObjects (noting f) schema path).outcome (s, []) =
        (((mapObjects f schema path).outcome s).1, ((mapObjects f schema path).outcome s).2, calls) ∧
      (gatherObjects (noting g) schema path).outcome (t, []) =
        (((gatherObjects g schema path).outcome t).1, ((gatherObjects g schema path).outcome t).2,
          calls) ∧
      (∀ e, ((mapObjects f schema path).outcome s).1 = .error e ↔
        ((gatherObjects g schema path).outcome t).1 = .error e) ∧
      (∀ results t', (gatherObjects g schema path).outcome t = (.ok results, t') →
        (calls.mapM fun call => g call.1 call.2).outcome t = (.ok results, t')) ∧
      ((∀ members path s, ∃ made, ((f members path).outcome s).1 = .ok made) →
        ((∃ e, ((mapObjects f schema path).outcome s).1 = .error e) ↔
          ∃ route place, Place.at? ⟨schema, path, false⟩ route = some place ∧ place.IsStray) ∧
        ∀ e, ((mapObjects f schema path).outcome s).1 = .error e ↔
          ∃ stray, Place.FirstStray ⟨schema, path, false⟩ stray ∧
            e = SchemaError.shapeAt stray.path stray.schema) := by
  rcases mapObjects_inStep_gatherObjects same schema path s t with ⟨calls, noted, noted', stops⟩
  refine ⟨calls, noted [], noted' [], stops, ?_, ?_⟩
  · intro results t' gathered
    have noted' := noted' []
    rw [gathered] at noted'
    exact gatherObjects_eq_mapM_calls noted'
  · intro never
    have neverElse (members : List (String × Json)) (path : String) (t : τ) :
        ∃ a, ((g members path).outcome t).1 = .ok a := by
      rcases called : ((g members path).outcome t).1 with e | a
      · rcases never members path s with ⟨made, isOk⟩
        cases isOk.symm.trans ((same members path s t e).2 called)
      · exact ⟨a, rfl⟩
    have first (e : SchemaError) := (stops e).trans (fails_iff_firstStray neverElse schema path t e)
    refine ⟨?_, first⟩
    constructor
    · rintro ⟨e, failed⟩
      rcases (first e).1 failed with ⟨stray, ⟨route, stands, isStray, -⟩, -⟩
      exact ⟨route, stray, stands, isStray⟩
    · rintro ⟨route, place, stands, isStray⟩
      rcases isFirst : Place.firstStop? ⟨schema, path, false⟩ with _ | ⟨schema', path'⟩
      · exact ((Place.firstStop?_eq_none_iff _).1 isFirst route place stands isStray).elim
      · rcases (Place.firstStray_iff _ schema' path').1 isFirst with ⟨stray, firstStray, -, -⟩
        exact ⟨_, (first _).2 ⟨stray, firstStray, rfl⟩⟩

end Walks

/-! ## A walk that a call stops, and one that a leaf stops -/

/-- An array of two objects, the second without properties, beside `null` and a third object. -/
def pairOrNull : Json :=
  .object [("anyOf", .array [
    .object [("items", .array [.object [("properties", .object [])],
      .object [("type", .string "object")]])],
    .object [("type", .string "null")],
    .object [("properties", .object [])]])]

/-- Objects without properties are refused, others get a member with their address. -/
def markDeclared (members : List (String × Json)) (path : String) :
    Stateful Unit (List (String × Json)) :=
  if Entries.contains members "properties" then
    pure (Entries.insert members "address" (.string path))
  else throw (SchemaError.noProperties path)

/-- Objects without properties are refused, others are counted. -/
def countDeclared (members : List (String × Json)) (path : String) : Stateful Nat String :=
  if Entries.contains members "properties" then do
    modify (· + 1)
    pure path
  else throw (SchemaError.noProperties path)

/-- `null` beside an array of texts and a number. -/
def textsOrNumber : Json :=
  .object [("anyOf", .array [
    .object [("type", .string "null")],
    .object [("type", .string "array"), ("items", .object [("type", .string "string")])],
    .object [("type", .string "integer")]])]

theorem markDeclared_fails_iff (members : List (String × Json)) (path : String) (s : Unit) (t : Nat)
    (e : SchemaError) :
    ((markDeclared members path).outcome s).1 = .error e ↔
      ((countDeclared members path).outcome t).1 = .error e := by
  unfold markDeclared countDeclared
  split
  · exact iff_of_false nofun nofun
  · simp only [Stateful.outcome_throw, Except.error.injEq]

/-- The first schema takes two calls, of which the second fails; on the second schema, functions
that never fail stop at the items, behind `null` and in front of the number. -/
theorem walks_agree_pairOrNull :
    (∃ calls : List Call,
      calls.map Prod.snd = ["#/anyOf/0/items/0", "#/anyOf/0/items/1"] ∧
      (mapObjects (noting markDeclared) pairOrNull "#").outcome ((), []) =
        (.error (.noProperties "#/anyOf/0/items/1"), (), calls) ∧
      (gatherObjects (noting countDeclared) pairOrNull "#").outcome (0, []) =
        (.error (.noProperties "#/anyOf/0/items/1"), 1, calls)) ∧
    ∃ stray, Place.FirstStray ⟨textsOrNumber, "#", false⟩ stray ∧
      SchemaError.shapeAt "#/anyOf/1/items" (.object [("type", .string "string")]) =
        SchemaError.shapeAt stray.path stray.schema := by
  constructor
  · rcases walks_agree markDeclared_fails_iff pairOrNull "#" () 0 with
      ⟨calls, noted, noted', -, -, -⟩
    have mapped : (mapObjects (noting markDeclared) pairOrNull "#").outcome ((), []) =
        (.error (.noProperties "#/anyOf/0/items/1"), (),
          [([("properties", .object [])], "#/anyOf/0/items/0"),
            ([("type", .string "object")], "#/anyOf/0/items/1")]) := by
      decide +kernel
    have gathered : (gatherObjects countDeclared pairOrNull "#").outcome 0 =
        (.error (.noProperties "#/anyOf/0/items/1"), 1) := by
      decide +kernel
    have isCalls : calls = _ := congrArg (fun end_ => end_.2.2) (noted.symm.trans mapped)
    rw [gathered] at noted'
    exact ⟨calls, by rw [isCalls]; rfl, isCalls ▸ mapped, noted'⟩
  · -- Both functions give their argument back.
    rcases walks_agree (f := fun members _ => (pure members : Stateful Unit _))
      (g := fun members _ => (pure members : Stateful Unit _)) (fun _ _ _ _ _ => Iff.rfl)
      textsOrNumber "#" () () with ⟨-, -, -, -, -, never⟩
    refine ((never fun members _ _ => ⟨members, rfl⟩).2 _).1 ?_
    decide +kernel

end HyperSchema.Schema
