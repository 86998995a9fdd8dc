import HyperSchema.Schema.Reference
import HyperSchema.Warning

/-!
# Inlining references

A document with what its local references stand for in their place.  This file defines:

* `Schema.inlineValue`, a part of a document with its references replaced;
* `Json.inlined`, a whole document.

A reference below itself is cyclic and stays.  So do references to other documents and those without
a target, with a warning each.  Members beside a reference are dropped with it.  The links of a
target are not copied: they describe operations, not values.
-/

namespace HyperSchema

namespace Schema

/-- A value without its own links. -/
def withoutLinks : Json → Json
  | .object members => .object (Entries.swapErase members "links")
  | value => value

/-- The known references that are not in progress. -/
def idle (known inProgress : List String) : List String :=
  known.filter fun reference => !inProgress.contains reference

theorem mem_idle {known inProgress : List String} {reference : String} :
    reference ∈ idle known inProgress ↔ reference ∈ known ∧ reference ∉ inProgress := by
  simp [idle]

/-- A reference that goes into progress is idle no more. -/
theorem length_idle_lt {known inProgress : List String} {reference : String}
    (h : reference ∈ idle known inProgress) :
    (idle known (reference :: inProgress)).length < (idle known inProgress).length := by
  have shape : idle known (reference :: inProgress) =
      (idle known inProgress).filter fun other => other != reference := by
    simp only [idle, List.filter_filter]
    congr 1
    funext other
    by_cases same : other = reference <;> simp [same]
  rw [shape]
  exact List.length_filter_lt_length_iff_exists.2 ⟨reference, h, by simp⟩

/-! ## Values -/

mutual

/-- A value with its references replaced.  The references in `inProgress` are those whose targets
the value is part of; only `known` references are replaced. -/
def inlineValue (root : Json) (known inProgress : List String) (value : Json) : Noted Json :=
  match value with
  | .object members =>
      match referenceIn? members with
      | none => do return .object (← inlineMembers root known inProgress members)
      | some reference =>
          match localPointer? reference with
          | none => do
              Noted.warn (.nonLocalReference reference)
              return value
          | some pointer =>
              -- The value is part of what the reference stands for.
              if _open : reference ∈ inProgress then pure value
              else
                match root.pointer? pointer with
                | none => do
                    Noted.warn (.missingTarget reference)
                    return value
                | some target =>
                    -- In the document whose references are known this holds of every reference.
                    if _known : reference ∈ known then
                      inlineValue root known (reference :: inProgress) (withoutLinks target)
                    else pure value
  | .array items => do return .array (← inlineItems root known inProgress items)
  | _ => pure value
termination_by ((idle known inProgress).length, sizeOf value)
decreasing_by
  · exact Prod.Lex.right _ (by simp)
  · exact Prod.Lex.left _ _ (length_idle_lt (mem_idle.2 ⟨_known, _open⟩))
  · exact Prod.Lex.right _ (by simp)

/-- Items with their references replaced. -/
def inlineItems (root : Json) (known inProgress : List String) (items : List Json) :
    Noted (List Json) :=
  match items with
  | [] => pure []
  | item :: rest => do
      let item ← inlineValue root known inProgress item
      return item :: (← inlineItems root known inProgress rest)
termination_by ((idle known inProgress).length, sizeOf items)

/-- Members with their references replaced. -/
def inlineMembers (root : Json) (known inProgress : List String) (members : List (String × Json)) :
    Noted (List (String × Json)) :=
  match members with
  | [] => pure []
  | (name, value) :: rest => do
      let value ← inlineValue root known inProgress value
      return (name, value) :: (← inlineMembers root known inProgress rest)
termination_by ((idle known inProgress).length, sizeOf members)

end

end Schema

/-! ## Documents -/

/-- A document with its local references replaced by what they stand for. -/
def Json.inlined (document : Json) : Noted Json :=
  Schema.inlineValue document document.references [] document

end HyperSchema
