import HyperSchema.Proofs.Schema.Objects

/-!
# Stops — where a walk through a schema stops, without addresses

A walk stops at object schemas and at stray leaves, and the address from which it starts does not
matter.  This file defines:

* `Schema.stops`, the object schemas and the stray leaves, in order, and `Schema.stops_eq`, the
  stops at a node;
* `Schema.mem_objects_iff`: the object schemas in reach are the stops that are no leaves;
* `Schema.gatherObjects_ok_iff`: collecting succeeds if there are no stray leaves and no object
  schema fails.
-/

namespace HyperSchema.Schema

variable {schema : Json} {path : String}

/-! ## Stops -/

/-- Where a walk through a schema stops, in order: at object schemas with these members, and at
stray leaves. -/
def stops (schema : Json) : List (Option (Entries Json)) :=
  (visits schema "").map Visit.members?

theorem members?_under (front : String) (visit : Visit) :
    (visit.under front).members? = visit.members? := by
  cases visit <;> rfl

/-- The address from which a walk starts does not matter to where it stops. -/
theorem map_members?_visits (schema : Json) (path : String) :
    (visits schema path).map Visit.members? = stops schema := by
  have moved := visits_under path schema ""
  rw [String.append_empty] at moved
  rw [moved, List.map_map, stops]
  exact List.map_congr_left fun visit _ => members?_under path visit

theorem map_members?_visitsOfBranches (branches : List Json) (path : String) (i : Nat) :
    (visitsOfBranches branches path i).map Visit.members? =
      branches.flatMap fun branch => if branch.isNullSchema then [] else stops branch := by
  induction branches generalizing i with
  | nil =>
      rw [visitsOfBranches]
      rfl
  | cons branch rest ih =>
      rw [visitsOfBranches, List.map_append, ih, List.flatMap_cons]
      split
      · rfl
      · rw [map_members?_visits]

theorem map_members?_visitsOfTuple (schemas : List Json) (path : String) (i : Nat) :
    (visitsOfTuple schemas path i).map Visit.members? = schemas.flatMap stops := by
  induction schemas generalizing i with
  | nil =>
      rw [visitsOfTuple]
      rfl
  | cons schema rest ih =>
      rw [visitsOfTuple, List.map_append, ih, List.flatMap_cons, map_members?_visits]

theorem stops_eq (schema : Json) :
    stops schema =
      match schema.node with
      | .reference _ => []
      | .object members => [some members]
      | .union _ branches =>
          branches.flatMap fun branch => if branch.isNullSchema then [] else stops branch
      | .array _ (.single item) => stops item
      | .array _ (.tuple schemas) => schemas.flatMap stops
      | .array _ .missing => []
      | .leaf => [none] := by
  rw [stops, visits_eq]
  cases schema.node with
  | union members branches => exact map_members?_visitsOfBranches branches "" 0
  | array members items =>
      cases items with
      | single item => exact map_members?_visits item (itemsPath "")
      | tuple schemas => exact map_members?_visitsOfTuple schemas "" 0
      | missing => rfl
  | _ => rfl

/-- The object schemas in reach are where a walk stops, stray leaves apart. -/
theorem mem_objects_iff {object : Entries Json} :
    object ∈ objects schema ↔ some object ∈ stops schema := by
  rw [objects_eq_filterMap_visits schema "", stops, List.mem_filterMap, List.mem_map]

/-! ## Success -/

/-- Collecting succeeds if there are no stray leaves and no object schema fails. -/
theorem gatherObjects_ok_iff {α : Type} {f : List (String × Json) → String → Except SchemaError α}
    {fails : Entries Json → Prop}
    (failing : ∀ members path, (∃ e, f members path = .error e) ↔ fails members) :
    (∃ results, gatherObjects f schema path = .ok results) ↔
      none ∉ stops schema ∧ ∀ members ∈ objects schema, ¬ fails members := by
  rw [gatherObjects_eq_mapM (fun _ _ => rfl)]
  simp only [mem_objects_iff, ← map_members?_visits schema path, List.mem_map]
  constructor
  · rintro ⟨results, gathered⟩
    constructor
    · rintro ⟨visit, mem, isLeaf⟩
      rcases ok_of_mem_mapM gathered mem with ⟨result, -, made⟩
      cases visit with
      | object => cases isLeaf
      | stray => cases made
    · rintro members ⟨visit, mem, isObject⟩ failed
      rcases ok_of_mem_mapM gathered mem with ⟨result, -, made⟩
      cases visit with
      | object found path' =>
          cases isObject
          rcases (failing members path').2 failed with ⟨e, isError⟩
          cases made.symm.trans isError
      | stray => cases isObject
  · rintro ⟨noLeaf, noFailure⟩
    -- An error would be that of one of the stops.
    cases gathered : (visits schema path).mapM (Visit.run f) with
    | ok results => exact ⟨results, rfl⟩
    | error e =>
        rcases error_of_mapM gathered with ⟨visit, mem, failed⟩
        cases visit with
        | object members path' =>
            exact (noFailure members ⟨_, mem, rfl⟩ ((failing members path').1 ⟨e, failed⟩)).elim
        | stray leaf path' => exact (noLeaf ⟨_, mem, rfl⟩).elim

end HyperSchema.Schema
