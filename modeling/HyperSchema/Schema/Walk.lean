import HyperSchema.Schema.Error
import HyperSchema.Schema.Node

/-!
# Walks through a schema

Visits of the object schemas that a schema reaches through unions and arrays.  This file defines:

* `Schema.mapObjects`, which replaces each object schema by what a function makes of it;
* `Schema.gatherObjects`, which lists what a function makes of each.

Both visit in document order and hand over the address of each object.  References and the `null`
branches of unions are passed over; any other leaf is an error.  The function works in any monad
with schema errors.
-/

namespace HyperSchema.Schema

variable {m : Type → Type} [Monad m] [MonadExceptOf SchemaError m] {α : Type}

/-! ## Addresses -/

/-- The address of a branch of a union. -/
def branchPath (path : String) (i : Nat) : String := path ++ "/anyOf/" ++ toString i

/-- The address of the schema of all items. -/
def itemsPath (path : String) : String := path ++ "/items"

/-- The address of the schema at a position. -/
def tuplePath (path : String) (i : Nat) : String := path ++ "/items/" ++ toString i

/-! ## Replacing -/

mutual

/-- The schema with every object schema in reach replaced by `f` of it. -/
def mapObjects (f : List (String × Json) → String → m (List (String × Json))) (schema : Json)
    (path : String) : m Json :=
  match _h : schema.node with
  | .reference _ => pure schema
  | .object members => return .object (← f members path)
  | .union members branches =>
      return .object (Entries.insert members "anyOf" (.array (← mapBranches f branches path 0)))
  | .array members (.single item) =>
      return .object (Entries.insert members "items" (← mapObjects f item (itemsPath path)))
  | .array members (.tuple schemas) =>
      return .object (Entries.insert members "items" (.array (← mapTuple f schemas path 0)))
  | .array _ .missing => pure schema
  | .leaf => throw (SchemaError.shapeAt path schema)
termination_by sizeOf schema
decreasing_by
  all_goals first
    | exact sizeOf_branches_lt _h
    | exact sizeOf_single_lt _h
    | exact sizeOf_tuple_lt _h

/-- The branches of a union from position `i` on. -/
def mapBranches (f : List (String × Json) → String → m (List (String × Json)))
    (branches : List Json) (path : String) (i : Nat) : m (List Json) :=
  match branches with
  | [] => pure []
  | branch :: rest => do
      let branch ← if branch.isNullSchema then pure branch
        else mapObjects f branch (branchPath path i)
      return branch :: (← mapBranches f rest path (i + 1))
termination_by sizeOf branches

/-- The schemas of a tuple from position `i` on. -/
def mapTuple (f : List (String × Json) → String → m (List (String × Json)))
    (schemas : List Json) (path : String) (i : Nat) : m (List Json) :=
  match schemas with
  | [] => pure []
  | schema :: rest => do
      let schema ← mapObjects f schema (tuplePath path i)
      return schema :: (← mapTuple f rest path (i + 1))
termination_by sizeOf schemas

end

/-! ## Collecting -/

mutual

/-- What `f` makes of every object schema in reach, in order. -/
def gatherObjects (f : List (String × Json) → String → m α) (schema : Json) (path : String) :
    m (List α) :=
  match _h : schema.node with
  | .reference _ => pure []
  | .object members => return [← f members path]
  | .union _ branches => gatherBranches f branches path 0
  | .array _ (.single item) => gatherObjects f item (itemsPath path)
  | .array _ (.tuple schemas) => gatherTuple f schemas path 0
  | .array _ .missing => pure []
  | .leaf => throw (SchemaError.shapeAt path schema)
termination_by sizeOf schema
decreasing_by
  all_goals first
    | exact sizeOf_branches_lt _h
    | exact sizeOf_single_lt _h
    | exact sizeOf_tuple_lt _h

/-- The results of the branches of a union from position `i` on. -/
def gatherBranches (f : List (String × Json) → String → m α) (branches : List Json)
    (path : String) (i : Nat) : m (List α) :=
  match branches with
  | [] => pure []
  | branch :: rest => do
      let found ← if branch.isNullSchema then pure []
        else gatherObjects f branch (branchPath path i)
      return found ++ (← gatherBranches f rest path (i + 1))
termination_by sizeOf branches

/-- The results of the schemas of a tuple from position `i` on. -/
def gatherTuple (f : List (String × Json) → String → m α) (schemas : List Json)
    (path : String) (i : Nat) : m (List α) :=
  match schemas with
  | [] => pure []
  | schema :: rest => do
      let found ← gatherObjects f schema (tuplePath path i)
      return found ++ (← gatherTuple f rest path (i + 1))
termination_by sizeOf schemas

end

end HyperSchema.Schema
