/-!
# Ambiguity of a request

Why a request body cannot be taken apart into flat arguments.  This file defines:

* `Ambiguity`, the reasons;
* `Ambiguity.message`, their wording.
-/

namespace HyperSchema

/-- Why the parts of a request body are not known. -/
inductive Ambiguity where
  /-- The record may have several types. -/
  | severalTypes
  /-- Neither block says which fields it has. -/
  | unknownFields
  /-- A name stands for an attribute and for a relationship. -/
  | sharedNames (names : List String)
deriving DecidableEq, Repr

/-- The wording of a reason. -/
def Ambiguity.message : Ambiguity → String
  | severalTypes => "entity type is not a single value"
  | unknownFields => "neither attributes nor relationships declare properties"
  | sharedNames names =>
      "keys used as both attribute and relationship: " ++ ", ".intercalate names

end HyperSchema
