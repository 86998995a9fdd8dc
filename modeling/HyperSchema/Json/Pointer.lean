import HyperSchema.Json.Basic
import HyperSchema.Text.Lines

/-!
# JSON pointers

Addresses of values inside a document.  This file defines:

* `Json.Pointer.segments?`, the decoded segments of a written pointer;
* `Json.child?`, the value under one segment;
* `Json.pointer?`, the value at a pointer;
* `Json.replaceAt?`, the document with another value at an existing place.

A pointer is empty or starts with `/`; `~1` stands for `/` and `~0` for `~`.  Array indices have no
sign and no leading zero.
-/

namespace HyperSchema.Json

namespace Pointer

/-- Replaces `~1` by a slash, everywhere and from left to right. -/
def restoreSlash : List Char → List Char
  | '~' :: '1' :: rest => '/' :: restoreSlash rest
  | c :: rest => c :: restoreSlash rest
  | [] => []

/-- Replaces `~0` by a tilde, everywhere and from left to right. -/
def restoreTilde : List Char → List Char
  | '~' :: '0' :: rest => '~' :: restoreTilde rest
  | c :: rest => c :: restoreTilde rest
  | [] => []

/-- The name that a written segment stands for. -/
def decodeSegment (segment : List Char) : String :=
  String.ofList (restoreTilde (restoreSlash segment))

/-- The segments of a written pointer; `none` if it is neither empty nor starts with a slash. -/
def segments? (text : List Char) : Option (List String) :=
  match text with
  | [] => some []
  | '/' :: rest => some ((Text.splitOn '/' rest).map decodeSegment)
  | _ => none

/-- The array index that a segment spells. -/
def index? (segment : String) : Option Nat :=
  let digits := segment.toList
  if digits.isEmpty || !digits.all Char.isDigit || (digits.head? == some '0' && digits.length != 1)
  then none
  else some (digits.foldl (fun n c => n * 10 + (c.toNat - '0'.toNat)) 0)

end Pointer

/-- The value under one segment of a pointer. -/
def child? (value : Json) (segment : String) : Option Json :=
  match value with
  | object members => Entries.get? members segment
  | array items => (Pointer.index? segment).bind fun i => items[i]?
  | _ => none

@[simp] theorem child?_object (members : Entries Json) (segment : String) :
    (object members).child? segment = members.get? segment := rfl

@[simp] theorem child?_array (items : List Json) (segment : String) :
    (array items).child? segment = (Pointer.index? segment).bind fun i => items[i]? := rfl

/-- The value under a list of segments. -/
def at? (value : Json) : List String → Option Json
  | [] => some value
  | segment :: rest => (value.child? segment).bind fun child => child.at? rest

/-- The value at a pointer. -/
def pointer? (value : Json) (text : String) : Option Json :=
  (Pointer.segments? text.toList).bind value.at?

/-- The value with the place under a list of segments replaced, if the place exists. -/
def replaceAt? (value : Json) : List String → Json → Option Json
  | [], new => some new
  | segment :: rest, new => do
      let child ← value.child? segment
      let child ← child.replaceAt? rest new
      match value with
      | object members => some (.object (Entries.insert members segment child))
      | array items => (Pointer.index? segment).map fun i => .array (items.set i child)
      | _ => none

end HyperSchema.Json
