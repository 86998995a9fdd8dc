import HyperSchema.Json.Writer
import HyperSchema.Text.Quoted

/-!
# Faults of links

Why a value does not read as the description of links.  This file defines:

* `Json.Sort`, what a message says about a value, and `Json.sort`;
* `LinkFault`, the causes, and `LinkFault.message`, their wording.
-/

namespace HyperSchema

/-! ## Values in messages -/

/-- What a message says about a value. -/
inductive Json.Sort where
  | null
  | bool (value : Bool)
  | number (value : Json.Number)
  | string (text : String)
  | sequence
  | map
deriving DecidableEq, Repr

/-- What a message says about a value. -/
def Json.sort : Json → Json.Sort
  | .null => .null
  | .bool value => .bool value
  | .number value => .number value
  | .string text => .string text
  | .array _ => .sequence
  | .object _ => .map

/-- The words for a value. -/
def Json.Sort.message : Json.Sort → String
  | null => "null"
  | bool value => "boolean \x60" ++ toString value ++ "\x60"
  | number (.integer value) => "integer \x60" ++ toString value ++ "\x60"
  | number (.double value) =>
      "floating point \x60" ++ (Json.Number.double value).text ++ "\x60"
  | string text => "string " ++ Text.quoted text
  | sequence => "sequence"
  | map => "map"

/-! ## Faults -/

/-- What stands in a place of a link description. -/
inductive LinkPart where
  | links
  | link
  | text
  | flag
deriving DecidableEq, Repr

/-- The words for what a place asks for. -/
def LinkPart.message : LinkPart → String
  | links => "a sequence"
  | link => "struct LinkDescriptor"
  | text => "a string"
  | flag => "a boolean"

/-- Why a value does not read as a description of links. -/
inductive LinkFault where
  /-- A value of another sort than its place asks for. -/
  | wrongSort (found : Json.Sort) (wanted : LinkPart)
  /-- A deprecation that is neither a flag nor a text. -/
  | wrongDeprecation
  /-- A link without a field that it needs. -/
  | missingField (name : String)
  /-- A link written by position that ends before a field it needs. -/
  | tooShort (length : Nat)
  /-- A link written by position with more values than fields. -/
  | tooLong (length : Nat)
deriving DecidableEq, Repr

/-- The wording of a fault. -/
def LinkFault.message : LinkFault → String
  | wrongSort found wanted => "invalid type: " ++ found.message ++ ", expected " ++ wanted.message
  | wrongDeprecation => "data did not match any variant of untagged enum Deprecation"
  | missingField name => "missing field \x60" ++ name ++ "\x60"
  | tooShort length =>
      "invalid length " ++ toString length ++ ", expected struct LinkDescriptor with 11 elements"
  | tooLong length => "invalid length " ++ toString length ++ ", expected fewer elements in array"

end HyperSchema
