import HyperSchema.Proofs.Endpoint.Faults

/-!
# Relocation — an analysis at another address

The address at which an analysis starts has no part in what it finds, and stands in front of the
address in its error.  This file defines:

* `SchemaError.under`, an error with something in front of its address;
* `Schema.gatherObjects_under`, for a walk;
* `RequestShape.ofBody_under`, for a request body;
* `Endpoint.result_ofLink`: what is made of a link at an address is what is made of it at none,
  except that its error stands below the address.
-/

namespace HyperSchema

open Schema

/-- The error at an address that is moved below another one. -/
def SchemaError.under (front : String) : SchemaError → SchemaError
  | unknownShape path snippet => unknownShape (front ++ path) snippet
  | noProperties path => noProperties (front ++ path)
  | other => other

theorem SchemaError.under_of_not_aboutNode (front : String) {e : SchemaError}
    (h : e.isAboutNode = false) : e.under front = e := by
  cases e with
  | unknownShape path snippet => cases h
  | noProperties path => cases h
  | _ => rfl

/-! ## Results with other errors -/

section MapError

variable {ε ε' α β : Type} (g : ε → ε')

theorem mapError_bind (step : Except ε α) (next : α → Except ε β) :
    (step >>= next).mapError g = step.mapError g >>= fun first => (next first).mapError g := by
  cases step with
  | error failure => rfl
  | ok first => rfl

theorem mapError_map (step : Except ε α) (made : α → β) :
    (step.map made).mapError g = (step.mapError g).map made := by
  cases step with
  | error failure => rfl
  | ok first => rfl

theorem mapM_mapError (step : α → Except ε β) (list : List α) :
    list.mapM (fun element => (step element).mapError g) = (list.mapM step).mapError g := by
  induction list with
  | nil => rfl
  | cons element rest ih =>
      rw [List.mapM_cons, List.mapM_cons, ih, mapError_bind]
      refine bind_congr fun first => ?_
      rw [mapError_bind]
      rfl

theorem mapError_eq_self {g : ε → ε} {result : Except ε α}
    (same : ∀ e, result = .error e → g e = e) : result.mapError g = result := by
  cases result with
  | error failure => exact congrArg Except.error (same failure rfl)
  | ok found => rfl

end MapError

/-! ## Walks -/

namespace Schema

theorem propertyPath_append (front path name : String) :
    propertyPath (front ++ path) name = front ++ propertyPath path name := by
  simp only [propertyPath, String.append_assoc]

variable {α : Type} {f : List (String × Json) → String → Except SchemaError α}

/-- What is collected does not depend on the address, if what is collected at a stop does not. -/
theorem gatherObjects_under {front : String}
    (each : ∀ members path, f members (front ++ path) = (f members path).mapError (.under front))
    (schema : Json) (path : String) :
    gatherObjects f schema (front ++ path) =
      (gatherObjects f schema path).mapError (.under front) := by
  have atStop : (fun visit => Visit.run f (.under front visit)) =
      fun visit => (Visit.run f visit).mapError (.under front) := by
    funext visit
    cases visit with
    | object members path => exact each members path
    | stray schema path => rfl
  rw [gatherObjects_eq_mapM (fun _ _ => rfl), gatherObjects_eq_mapM (fun _ _ => rfl), visits_under,
    List.mapM_map]
  show (visits schema path).mapM (fun visit => Visit.run f (.under front visit)) = _
  rw [atStop, mapM_mapError]

end Schema

/-! ## Request bodies -/

namespace RequestShape

variable (front : String)

theorem propertyNames_under (members : Entries Json) (path : String) :
    propertyNames members (front ++ path) = (propertyNames members path).mapError (.under front) := by
  unfold propertyNames
  cases properties members with
  | none => rfl
  | some found => rfl

/-- An object without properties opens the block at every address. -/
theorem blockFields_under (schema : Json) (path : String) :
    blockFields schema (front ++ path) = (blockFields schema path).mapError (.under front) := by
  unfold blockFields
  rw [gatherObjects_under (propertyNames_under front)]
  cases schema.node with
  | reference target => rfl
  | _ =>
      cases gatherObjects propertyNames schema path with
      | ok sets => rfl
      | error e => cases e <;> rfl

theorem fieldsUnder_under (block : String) (members : Entries Json) (path : String) :
    fieldsUnder block members (front ++ path) =
      (fieldsUnder block members path).mapError (.under front) := by
  unfold fieldsUnder
  cases (properties members).bind fun found => found.get? block with
  | none => rfl
  | some schema =>
      dsimp only
      rw [propertyPath_append]
      exact blockFields_under front schema _

theorem ofData_under (data : Json) (path : String) :
    ofData data (front ++ path) = (ofData data path).mapError (.under front) := by
  unfold ofData
  rw [gatherObjects_under (fun _ _ => rfl), gatherObjects_under (fieldsUnder_under front _),
    gatherObjects_under (fieldsUnder_under front _), mapError_bind]
  refine bind_congr fun types => ?_
  rw [mapError_bind]
  refine bind_congr fun attributes => ?_
  rw [mapError_bind]
  rfl

/-- The shape of a body does not depend on the address of the body. -/
theorem ofBody_under (body : Json) (path : String) :
    ofBody body (front ++ path) = (ofBody body path).mapError (.under front) := by
  unfold ofBody
  cases data? body with
  | none => rfl
  | some data =>
      dsimp only
      rw [propertyPath_append, ofData_under, mapError_map]

end RequestShape

/-! ## Links -/

namespace Endpoint

variable {docsBase : Option String} {resource : String}

theorem shapeOf_under (link : Link) (path : String) :
    shapeOf link path = (shapeOf link "").mapError (.under path) := by
  unfold shapeOf
  cases link.schema with
  | none => rfl
  | some body =>
      dsimp only
      rw [String.empty_append]
      exact RequestShape.ofBody_under path body "/schema"

/-- Of what is made of a link, only an error about a node in its request body tells the address. -/
theorem result_ofLink (link : Link) (path : String) :
    (ofLink docsBase resource link path).result =
      (ofLink docsBase resource link "").result.mapError (.under path) := by
  have method : (methodOf resource link).mapError (.under path) = methodOf resource link := by
    refine mapError_eq_self fun e failed => ?_
    unfold methodOf at failed
    split at failed
    · cases failed
    · cases failed
      rfl
  have address : (Address.parse link.href resource).result.mapError (.under path) =
      (Address.parse link.href resource).result :=
    mapError_eq_self fun e failed => SchemaError.under_of_not_aboutNode path
      (isAboutNode_of_parse failed)
  unfold ofLink
  simp only [Checked.result_bind, Checked.result_ofExcept, mapError_bind, method, address,
    shapeOf_under link path]
  refine bind_congr fun known => bind_congr fun parsed => bind_congr fun shape => ?_
  cases shape.bind RequestShape.ambiguity? with
  | none => rfl
  | some reason => rfl

end Endpoint

end HyperSchema
