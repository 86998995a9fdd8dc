import HyperSchema.Proofs.Outcome
import HyperSchema.Schema.Walk

/-!
# Visits — the stops of a walk through a schema

A walk does the same at every stop, one after another.  This file defines:

* `Schema.Visit` and `Schema.visits`, the stops of a walk in order;
* `Schema.visits_under`: a walk makes the same stops at every address;
* `Schema.gatherObjects_eq_mapM`: collecting is a traversal of the stops;
* `Schema.Reaches`, the nodes that a schema reaches through unions and arrays;
* `Schema.exists_visit_iff`: the stops at objects are the objects in reach.
-/

namespace HyperSchema.Schema

/-! ## Stops -/

/-- A stop on a walk through a schema. -/
inductive Visit where
  /-- An object schema. -/
  | object (members : List (String × Json)) (path : String)
  /-- A leaf where no leaf may stand. -/
  | stray (schema : Json) (path : String)

/-- The node at a stop. -/
def Visit.node : Visit → Node
  | object members _ => .object members
  | stray _ _ => .leaf

mutual

/-- The stops of a walk through a schema, in order. -/
def visits (schema : Json) (path : String) : List Visit :=
  match _h : schema.node with
  | .reference _ => []
  | .object members => [.object members path]
  | .union _ branches => visitsOfBranches branches path 0
  | .array _ (.single item) => visits item (itemsPath path)
  | .array _ (.tuple schemas) => visitsOfTuple schemas path 0
  | .array _ .missing => []
  | .leaf => [.stray schema path]
termination_by sizeOf schema
decreasing_by
  all_goals first
    | exact sizeOf_branches_lt _h
    | exact sizeOf_single_lt _h
    | exact sizeOf_tuple_lt _h

/-- The stops in the branches of a union from position `i` on. -/
def visitsOfBranches (branches : List Json) (path : String) (i : Nat) : List Visit :=
  match branches with
  | [] => []
  | branch :: rest =>
      (if branch.isNullSchema then [] else visits branch (branchPath path i)) ++
        visitsOfBranches rest path (i + 1)
termination_by sizeOf branches

/-- The stops in the schemas of a tuple from position `i` on. -/
def visitsOfTuple (schemas : List Json) (path : String) (i : Nat) : List Visit :=
  match schemas with
  | [] => []
  | schema :: rest => visits schema (tuplePath path i) ++ visitsOfTuple rest path (i + 1)
termination_by sizeOf schemas

end

theorem visits_eq (schema : Json) (path : String) :
    visits schema path =
      match schema.node with
      | .reference _ => []
      | .object members => [.object members path]
      | .union _ branches => visitsOfBranches branches path 0
      | .array _ (.single item) => visits item (itemsPath path)
      | .array _ (.tuple schemas) => visitsOfTuple schemas path 0
      | .array _ .missing => []
      | .leaf => [.stray schema path] := by
  rw [visits]
  split <;> rename_i shape <;> rw [shape]

/-! ## Addresses -/

/-- The stop at an address that is moved below another one. -/
def Visit.under (front : String) : Visit → Visit
  | object members path => object members (front ++ path)
  | stray schema path => stray schema (front ++ path)

theorem branchPath_append (front path : String) (i : Nat) :
    branchPath (front ++ path) i = front ++ branchPath path i := by
  simp only [branchPath, String.append_assoc]

theorem itemsPath_append (front path : String) :
    itemsPath (front ++ path) = front ++ itemsPath path := by
  simp only [itemsPath, String.append_assoc]

theorem tuplePath_append (front path : String) (i : Nat) :
    tuplePath (front ++ path) i = front ++ tuplePath path i := by
  simp only [tuplePath, String.append_assoc]

/-- A walk makes the same stops at every address. -/
theorem visits_under (front : String) (schema : Json) (path : String) :
    visits schema (front ++ path) = (visits schema path).map (Visit.under front) := by
  refine visits.induct
    (fun schema path => visits schema (front ++ path) = (visits schema path).map (.under front))
    (fun schemas path i => visitsOfTuple schemas (front ++ path) i =
      (visitsOfTuple schemas path i).map (.under front))
    (fun branches path i => visitsOfBranches branches (front ++ path) i =
      (visitsOfBranches branches path i).map (.under front))
    ?reference ?object ?union ?items ?tuple ?missing ?leaf ?noPlace ?place ?noBranch ?branch
    schema path
  case reference =>
      intro schema path target shape
      rw [visits_eq, visits_eq, shape, List.map_nil]
  case object =>
      intro schema path members shape
      rw [visits_eq, visits_eq, shape]
      rfl
  case union =>
      intro schema path members branches shape ih
      rw [visits_eq, visits_eq schema path, shape]
      exact ih
  case items =>
      intro schema path members item shape ih
      rw [visits_eq, visits_eq schema path, shape]
      exact itemsPath_append front path ▸ ih
  case tuple =>
      intro schema path members schemas shape ih
      rw [visits_eq, visits_eq schema path, shape]
      exact ih
  case missing =>
      intro schema path members shape
      rw [visits_eq, visits_eq, shape, List.map_nil]
  case leaf =>
      intro schema path shape
      rw [visits_eq, visits_eq, shape]
      rfl
  case noPlace =>
      intro path i
      rw [visitsOfTuple, visitsOfTuple, List.map_nil]
  case place =>
      intro path i schema rest ih ihRest
      rw [visitsOfTuple, visitsOfTuple, List.map_append, tuplePath_append, ih, ihRest]
  case noBranch =>
      intro path i
      rw [visitsOfBranches, visitsOfBranches, List.map_nil]
  case branch =>
      intro path i branch rest ih ihRest
      rw [visitsOfBranches, visitsOfBranches, List.map_append, branchPath_append, ihRest]
      split
      · rfl
      · rw [ih]

/-! ## Traversals -/

section Traversals

variable {m : Type → Type} [Monad m] [MonadExceptOf SchemaError m] {α : Type}

/-- What a walk does at a stop. -/
def Visit.run (f : List (String × Json) → String → m α) : Visit → m α
  | object members path => f members path
  | stray schema path => throw (SchemaError.shapeAt path schema)

theorem gatherObjects_eq (f : List (String × Json) → String → m α) (schema : Json)
    (path : String) :
    gatherObjects f schema path =
      match schema.node with
      | .reference _ => pure []
      | .object members => do return [← f members path]
      | .union _ branches => gatherBranches f branches path 0
      | .array _ (.single item) => gatherObjects f item (itemsPath path)
      | .array _ (.tuple schemas) => gatherTuple f schemas path 0
      | .array _ .missing => pure []
      | .leaf => throw (SchemaError.shapeAt path schema) := by
  rw [gatherObjects]
  split <;> rename_i shape <;> rw [shape]

theorem mapObjects_eq (f : List (String × Json) → String → m (List (String × Json)))
    (schema : Json) (path : String) :
    mapObjects f schema path =
      match schema.node with
      | .reference _ => pure schema
      | .object members => do return .object (← f members path)
      | .union members branches => do
          return .object (Entries.insert members "anyOf"
            (.array (← mapBranches f branches path 0)))
      | .array members (.single item) => do
          return .object (Entries.insert members "items" (← mapObjects f item (itemsPath path)))
      | .array members (.tuple schemas) => do
          return .object (Entries.insert members "items"
            (.array (← mapTuple f schemas path 0)))
      | .array _ .missing => pure schema
      | .leaf => throw (SchemaError.shapeAt path schema) := by
  rw [mapObjects]
  split <;> rename_i shape <;> rw [shape]

variable [LawfulMonad m]

/-- Collecting handles the stops in order, in every monad where nothing follows an error. -/
theorem gatherObjects_eq_mapM
    (ends : ∀ {β γ : Type} (e : SchemaError) (next : β → m γ), throw e >>= next = throw e)
    (f : List (String × Json) → String → m α) (schema : Json) (path : String) :
    gatherObjects f schema path = (visits schema path).mapM (Visit.run f) := by
  refine visits.induct
    (fun schema path => gatherObjects f schema path = (visits schema path).mapM (Visit.run f))
    (fun schemas path i =>
      gatherTuple f schemas path i = (visitsOfTuple schemas path i).mapM (Visit.run f))
    (fun branches path i =>
      gatherBranches f branches path i = (visitsOfBranches branches path i).mapM (Visit.run f))
    ?reference ?object ?union ?items ?tuple ?missing ?leaf ?noPlace ?place ?noBranch ?branch
    schema path
  case reference =>
      intro schema path target shape
      rw [gatherObjects_eq, visits_eq, shape, List.mapM_nil]
  case object =>
      intro schema path members shape
      rw [gatherObjects_eq, visits_eq, shape]
      simp [Visit.run]
  case union =>
      intro schema path members branches shape ih
      rw [gatherObjects_eq, visits_eq, shape]
      exact ih
  case items =>
      intro schema path members item shape ih
      rw [gatherObjects_eq, visits_eq, shape]
      exact ih
  case tuple =>
      intro schema path members schemas shape ih
      rw [gatherObjects_eq, visits_eq, shape]
      exact ih
  case missing =>
      intro schema path members shape
      rw [gatherObjects_eq, visits_eq, shape, List.mapM_nil]
  case leaf =>
      intro schema path shape
      rw [gatherObjects_eq, visits_eq, shape, List.mapM_cons]
      -- The traversal goes on behind the stop, which has no effect after an error.
      exact (ends _ _).symm
  case noPlace =>
      intro path i
      rw [gatherTuple, visitsOfTuple, List.mapM_nil]
  case place =>
      intro path i schema rest ih ihRest
      rw [gatherTuple, visitsOfTuple, List.mapM_append, ih, ihRest]
  case noBranch =>
      intro path i
      rw [gatherBranches, visitsOfBranches, List.mapM_nil]
  case branch =>
      intro path i branch rest ih ihRest
      rw [gatherBranches, visitsOfBranches, List.mapM_append, ih, ihRest]
      split <;> simp

end Traversals

/-! ## Nodes in reach -/

/-- A schema reaches a node: it is this node, or a branch or an item of it reaches the node. -/
inductive Reaches (node : Node) : Json → Prop where
  | here {schema : Json} : schema.node = node → Reaches node schema
  | branch {schema branch : Json} {members : List (String × Json)} {branches : List Json} :
      schema.node = .union members branches → branch ∈ branches → Reaches node branch →
        Reaches node schema
  | item {schema item : Json} {members : List (String × Json)} :
      schema.node = .array members (.single item) → Reaches node item → Reaches node schema
  | place {schema place : Json} {members : List (String × Json)} {schemas : List Json} :
      schema.node = .array members (.tuple schemas) → place ∈ schemas → Reaches node place →
        Reaches node schema

/-- A schema that admits nothing but `null` is a leaf. -/
theorem node_of_isNullSchema {schema : Json} (h : schema.isNullSchema = true) :
    schema.node = .leaf := by
  unfold Json.isNullSchema at h
  split at h
  · assumption
  · cases h

theorem reaches_of_isNullSchema {schema : Json} {node : Node} (h : schema.isNullSchema = true)
    (reach : Reaches node schema) : node = .leaf := by
  have leaf := node_of_isNullSchema h
  cases reach with
  | here shape => exact shape.symm.trans leaf
  | branch shape => cases shape.symm.trans leaf
  | item shape => cases shape.symm.trans leaf
  | place shape => cases shape.symm.trans leaf

theorem reaches_of_mem_visits {schema : Json} {path : String} {visit : Visit}
    (h : visit ∈ visits schema path) : Reaches visit.node schema := by
  revert h
  -- A stop among several schemas is a stop of one of them.
  refine visits.induct (fun schema path => visit ∈ visits schema path → Reaches visit.node schema)
    (fun schemas path i =>
      visit ∈ visitsOfTuple schemas path i → ∃ schema ∈ schemas, Reaches visit.node schema)
    (fun branches path i =>
      visit ∈ visitsOfBranches branches path i → ∃ branch ∈ branches, Reaches visit.node branch)
    ?reference ?object ?union ?items ?tuple ?missing ?leaf ?noPlace ?place ?noBranch ?branch
    schema path
  case reference =>
      intro schema path target shape h
      rw [visits_eq, shape] at h
      cases h
  case object =>
      intro schema path members shape h
      rw [visits_eq, shape] at h
      cases List.mem_singleton.1 h
      exact .here shape
  case union =>
      intro schema path members branches shape ih h
      rw [visits_eq, shape] at h
      rcases ih h with ⟨branch, mem, reach⟩
      exact .branch shape mem reach
  case items =>
      intro schema path members item shape ih h
      rw [visits_eq, shape] at h
      exact .item shape (ih h)
  case tuple =>
      intro schema path members schemas shape ih h
      rw [visits_eq, shape] at h
      rcases ih h with ⟨place, mem, reach⟩
      exact .place shape mem reach
  case missing =>
      intro schema path members shape h
      rw [visits_eq, shape] at h
      cases h
  case leaf =>
      intro schema path shape h
      rw [visits_eq, shape] at h
      cases List.mem_singleton.1 h
      exact .here shape
  case noPlace =>
      intro path i h
      rw [visitsOfTuple] at h
      cases h
  case place =>
      intro path i schema rest ih ihRest h
      rw [visitsOfTuple] at h
      rcases List.mem_append.1 h with h | h
      · exact ⟨schema, List.mem_cons_self, ih h⟩
      · rcases ihRest h with ⟨place, mem, reach⟩
        exact ⟨place, List.mem_cons_of_mem _ mem, reach⟩
  case noBranch =>
      intro path i h
      rw [visitsOfBranches] at h
      cases h
  case branch =>
      intro path i branch rest ih ihRest h
      rw [visitsOfBranches] at h
      rcases List.mem_append.1 h with h | h
      · split at h
        · -- A branch that is passed over has no stops.
          cases h
        · exact ⟨branch, List.mem_cons_self, ih h⟩
      · rcases ihRest h with ⟨other, mem, reach⟩
        exact ⟨other, List.mem_cons_of_mem _ mem, reach⟩

theorem exists_visits_subset_tuple {schemas : List Json} {schema : Json} (mem : schema ∈ schemas)
    (path : String) (i : Nat) :
    ∃ path', ∀ visit ∈ visits schema path', visit ∈ visitsOfTuple schemas path i := by
  induction schemas generalizing i with
  | nil => cases mem
  | cons first rest ih =>
      rw [visitsOfTuple]
      rcases List.mem_cons.1 mem with rfl | mem
      · exact ⟨tuplePath path i, fun visit h => List.mem_append_left _ h⟩
      · rcases ih mem (i + 1) with ⟨path', inside⟩
        exact ⟨path', fun visit h => List.mem_append_right _ (inside visit h)⟩

theorem exists_visits_subset_branches {branches : List Json} {branch : Json}
    (mem : branch ∈ branches) (admits : branch.isNullSchema = false) (path : String) (i : Nat) :
    ∃ path', ∀ visit ∈ visits branch path', visit ∈ visitsOfBranches branches path i := by
  induction branches generalizing i with
  | nil => cases mem
  | cons first rest ih =>
      rw [visitsOfBranches]
      rcases List.mem_cons.1 mem with rfl | mem
      · rw [admits]
        exact ⟨branchPath path i, fun visit h => List.mem_append_left _ h⟩
      · rcases ih mem (i + 1) with ⟨path', inside⟩
        exact ⟨path', fun visit h => List.mem_append_right _ (inside visit h)⟩

/-- The objects among the stops are those in reach. -/
theorem exists_visit_iff {schema : Json} {members : List (String × Json)} {path : String} :
    (∃ path', Visit.object members path' ∈ visits schema path) ↔
      Reaches (.object members) schema := by
  constructor
  · rintro ⟨path', h⟩
    exact reaches_of_mem_visits h
  · intro reach
    induction reach generalizing path with
    | here shape =>
        rw [visits_eq, shape]
        exact ⟨path, List.mem_singleton.2 rfl⟩
    | @branch schema branch _ branches shape mem inside ih =>
        -- A branch with an object in reach is not one that the walk passes over.
        have admits : branch.isNullSchema = false := by
          cases isNull : branch.isNullSchema with
          | false => rfl
          | true => cases reaches_of_isNullSchema isNull inside
        rcases exists_visits_subset_branches mem admits path 0 with ⟨place, subset⟩
        rcases @ih place with ⟨path', h⟩
        rw [visits_eq, shape]
        exact ⟨path', subset _ h⟩
    | item shape _ ih =>
        rw [visits_eq, shape]
        exact ih
    | place shape mem _ ih =>
        rcases exists_visits_subset_tuple mem path 0 with ⟨place, subset⟩
        rcases @ih place with ⟨path', h⟩
        rw [visits_eq, shape]
        exact ⟨path', subset _ h⟩

/-! ## What is collected -/

section Collected

variable {α : Type} {f : List (String × Json) → String → Except SchemaError α} {schema : Json}
  {path : String} {results : List α}

/-- What is collected was made of an object in reach. -/
theorem reaches_of_mem_gatherObjects (h : gatherObjects f schema path = .ok results) {result : α}
    (mem : result ∈ results) :
    ∃ members path', Reaches (.object members) schema ∧ f members path' = .ok result := by
  rw [gatherObjects_eq_mapM (fun _ _ => rfl)] at h
  rcases mem_of_mapM h mem with ⟨visit, stop, made⟩
  cases visit with
  | object members path' => exact ⟨members, path', reaches_of_mem_visits stop, made⟩
  | stray => cases made

/-- Every object in reach has its part in what is collected. -/
theorem mem_gatherObjects_of_reaches (h : gatherObjects f schema path = .ok results)
    {members : List (String × Json)} (reach : Reaches (.object members) schema) :
    ∃ path', ∃ result ∈ results, f members path' = .ok result := by
  rcases exists_visit_iff.2 reach with ⟨path', stop⟩
  rw [gatherObjects_eq_mapM (fun _ _ => rfl)] at h
  rcases ok_of_mem_mapM h stop with ⟨result, mem, made⟩
  exact ⟨path', result, mem, made⟩

end Collected

end HyperSchema.Schema
