import HyperSchema.Proofs.Schema.Visits

/-!
# Objects — the object schemas in reach, in order

What is collected from a schema comes from the object schemas that it reaches.  This file defines:

* `Schema.objects`, the object schemas that a schema reaches through unions and arrays;
* `Schema.objects_eq_filterMap_visits`: they are where a walk through the schema stops;
* `Schema.forall₂_of_gatherObjects`: each result that is collected was made of one of them, in their
  order;
* `Schema.exists_object_of_gatherObjects_eq_error`: where collecting fails, one of them fails, or a
  leaf is in the way.
-/

namespace HyperSchema.Schema

/-! ## Objects -/

mutual

/-- The object schemas that a schema reaches through unions and arrays, in order.  The `null`
branches of a union are passed over. -/
def objects (schema : Json) : List (Entries Json) :=
  match _h : schema.node with
  | .reference _ => []
  | .object members => [members]
  | .union _ branches => objectsOfBranches branches
  | .array _ (.single item) => objects item
  | .array _ (.tuple schemas) => objectsOfTuple schemas
  | .array _ .missing => []
  | .leaf => []
termination_by sizeOf schema
decreasing_by
  all_goals first
    | exact sizeOf_branches_lt _h
    | exact sizeOf_single_lt _h
    | exact sizeOf_tuple_lt _h

/-- The object schemas that the branches of a union reach. -/
def objectsOfBranches (branches : List Json) : List (Entries Json) :=
  match branches with
  | [] => []
  | branch :: rest =>
      (if branch.isNullSchema then [] else objects branch) ++ objectsOfBranches rest
termination_by sizeOf branches

/-- The object schemas that the schemas of a tuple reach. -/
def objectsOfTuple (schemas : List Json) : List (Entries Json) :=
  match schemas with
  | [] => []
  | schema :: rest => objects schema ++ objectsOfTuple rest
termination_by sizeOf schemas

end

theorem objects_eq (schema : Json) :
    objects schema =
      match schema.node with
      | .reference _ => []
      | .object members => [members]
      | .union _ branches => objectsOfBranches branches
      | .array _ (.single item) => objects item
      | .array _ (.tuple schemas) => objectsOfTuple schemas
      | .array _ .missing => []
      | .leaf => [] := by
  rw [objects]
  split <;> rename_i shape <;> rw [shape]

/-- Nothing is reached through a reference. -/
theorem objects_of_reference {schema : Json} {target : String}
    (shape : schema.node = .reference target) : objects schema = [] := by
  rw [objects_eq, shape]

/-- The object schema at a stop. -/
def Visit.members? : Visit → Option (Entries Json)
  | object members _ => some members
  | stray _ _ => none

/-- The objects in reach are where a walk stops, leaves apart. -/
theorem objects_eq_filterMap_visits (schema : Json) (path : String) :
    objects schema = (visits schema path).filterMap Visit.members? := by
  refine visits.induct
    (fun schema path => objects schema = (visits schema path).filterMap Visit.members?)
    (fun schemas path i =>
      objectsOfTuple schemas = (visitsOfTuple schemas path i).filterMap Visit.members?)
    (fun branches path i =>
      objectsOfBranches branches = (visitsOfBranches branches path i).filterMap Visit.members?)
    ?reference ?object ?union ?items ?tuple ?missing ?leaf ?noPlace ?place ?noBranch ?branch
    schema path
  case reference =>
      intro schema path target shape
      rw [objects_eq, visits_eq, shape, List.filterMap_nil]
  case object =>
      intro schema path members shape
      rw [objects_eq, visits_eq, shape]
      rfl
  case union =>
      intro schema path members branches shape ih
      rw [objects_eq, visits_eq, shape]
      exact ih
  case items =>
      intro schema path members item shape ih
      rw [objects_eq, visits_eq, shape]
      exact ih
  case tuple =>
      intro schema path members schemas shape ih
      rw [objects_eq, visits_eq, shape]
      exact ih
  case missing =>
      intro schema path members shape
      rw [objects_eq, visits_eq, shape, List.filterMap_nil]
  case leaf =>
      intro schema path shape
      rw [objects_eq, visits_eq, shape]
      rfl
  case noPlace =>
      intro path i
      rw [objectsOfTuple, visitsOfTuple, List.filterMap_nil]
  case place =>
      intro path i schema rest ih ihRest
      rw [objectsOfTuple, visitsOfTuple, List.filterMap_append, ih, ihRest]
  case noBranch =>
      intro path i
      rw [objectsOfBranches, visitsOfBranches, List.filterMap_nil]
  case branch =>
      intro path i branch rest ih ihRest
      rw [objectsOfBranches, visitsOfBranches, List.filterMap_append, ih, ihRest]
      split <;> rfl

/-! ## What is collected -/

section Collected

variable {α : Type} {f : List (String × Json) → String → Except SchemaError α} {schema : Json}
  {path : String}

/-- Each result was made of one object in reach, and the results stand in their order. -/
theorem forall₂_of_gatherObjects {results : List α}
    (h : gatherObjects f schema path = .ok results) :
    List.Forall₂ (fun members result => ∃ path', f members path' = .ok result) (objects schema)
      results := by
  rw [gatherObjects_eq_mapM (fun _ _ => rfl)] at h
  rw [objects_eq_filterMap_visits schema path]
  have made := forall₂_of_mapM h
  clear h
  generalize visits schema path = stops at made ⊢
  induction made with
  | nil => exact .nil
  | @cons stop result _ _ head _ ih =>
      cases stop with
      | object members path' => exact .cons ⟨path', head⟩ ih
      | stray => cases head

/-- Where collecting fails, an object in reach fails, or a leaf is in the way. -/
theorem exists_object_of_gatherObjects_eq_error {e : SchemaError}
    (h : gatherObjects f schema path = .error e) :
    (∃ members ∈ objects schema, ∃ path', f members path' = .error e) ∨
      ∃ path' leaf, e = .shapeAt path' leaf := by
  rw [gatherObjects_eq_mapM (fun _ _ => rfl)] at h
  rcases error_of_mapM h with ⟨stop, mem, failed⟩
  cases stop with
  | object members path' =>
      refine .inl ⟨members, ?_, path', failed⟩
      rw [objects_eq_filterMap_visits schema path, List.mem_filterMap]
      exact ⟨_, mem, rfl⟩
  | stray leaf path' =>
      cases failed
      exact .inr ⟨path', leaf, rfl⟩

end Collected

end HyperSchema.Schema
