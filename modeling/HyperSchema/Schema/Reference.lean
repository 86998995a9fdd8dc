import HyperSchema.Json.Pointer

/-!
# References between schemas

A schema that stands for another one.  This file defines:

* `Json.reference?`, the reference that an object is;
* `Json.target?`, what a reference stands for in a document;
* `Json.references`, the references that occur in a document.

A local reference is `#` followed by a JSON pointer.  It is looked up as it is written, without
decoding percent signs.
-/

namespace HyperSchema

/-- The reference in the members of an object. -/
def Schema.referenceIn? (members : Entries Json) : Option String :=
  (members.get? "$ref").bind Json.string?

/-- The JSON pointer of a local reference. -/
def Schema.localPointer? (reference : String) : Option String :=
  match reference.toList with
  | '#' :: pointer => some (String.ofList pointer)
  | _ => none

namespace Json

/-- The reference that a value is: that of an object with a text under `$ref`. -/
def reference? (value : Json) : Option String :=
  value.members?.bind Schema.referenceIn?

/-- What a local reference stands for. -/
def target? (root : Json) (reference : String) : Option Json :=
  (Schema.localPointer? reference).bind root.pointer?

mutual

/-- The references that occur in a value: the texts under `$ref`, those beside others included. -/
def references : Json → List String
  | .object members => referencesOfMembers members
  | .array items => referencesOfItems items
  | _ => []

/-- The references that occur in some items. -/
def referencesOfItems : List Json → List String
  | [] => []
  | item :: rest => item.references ++ referencesOfItems rest

/-- The references that occur in some members. -/
def referencesOfMembers : List (String × Json) → List String
  | [] => []
  | (name, value) :: rest =>
      (if name = "$ref" then value.string?.toList else []) ++ value.references ++
        referencesOfMembers rest

end

end Json

end HyperSchema
