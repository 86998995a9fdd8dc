import HyperSchema.Decimal.Shortest
import HyperSchema.Entries

/-!
# JSON values

The data model of the documents that the library reads and writes.  This file defines:

* `Json.Number`, an integer or a double;
* `Json`, whose objects keep the order of their members;
* the accessors `member?`, `string?`, `members?`, `items?` and `natural?`.
-/

namespace HyperSchema

/-- A JSON number: integers from `-2 ^ 63` to `2 ^ 64 - 1` stay integers, every other number is a
double. -/
inductive Json.Number where
  | integer (value : Int)
  | double (value : Binary64)
deriving DecidableEq, Repr

/-- A JSON value.  The members of an object are in document order. -/
inductive Json where
  | null
  | bool (value : Bool)
  | number (value : Json.Number)
  | string (text : String)
  | array (items : List Json)
  | object (members : List (String × Json))
deriving Repr, Inhabited

namespace Json

/-! ## Accessors -/

/-- The members of an object. -/
def members? : Json → Option (Entries Json)
  | object members => some members
  | _ => none

/-- The items of an array. -/
def items? : Json → Option (List Json)
  | array items => some items
  | _ => none

/-- The text of a string. -/
def string? : Json → Option String
  | string text => some text
  | _ => none

/-- The value of a boolean. -/
def bool? : Json → Option Bool
  | bool value => some value
  | _ => none

/-- An integer that is not negative. -/
def natural? : Json → Option Nat
  | number (.integer value) => if value < 0 then none else some value.toNat
  | _ => none

/-- The member of an object under a name; `none` for every other value. -/
def member? (value : Json) (name : String) : Option Json :=
  match value with
  | object members => Entries.get? members name
  | _ => none

@[simp] theorem member?_object (members : Entries Json) (name : String) :
    (object members).member? name = members.get? name := rfl

/-! ## Equality -/

mutual

/-- Structural equality; the order of members counts. -/
def beq : Json → Json → Bool
  | null, null => true
  | bool a, bool b => a == b
  | number a, number b => a == b
  | string a, string b => a == b
  | array a, array b => beqItems a b
  | object a, object b => beqMembers a b
  | _, _ => false

/-- Equality item by item. -/
def beqItems : List Json → List Json → Bool
  | [], [] => true
  | a :: as, b :: bs => beq a b && beqItems as bs
  | _, _ => false

/-- Equality member by member. -/
def beqMembers : List (String × Json) → List (String × Json) → Bool
  | [], [] => true
  | (k, a) :: as, (l, b) :: bs => k == l && beq a b && beqMembers as bs
  | _, _ => false

end

instance : BEq Json := ⟨beq⟩

end Json

end HyperSchema
