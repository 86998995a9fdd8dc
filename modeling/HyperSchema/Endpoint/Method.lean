import HyperSchema.Text.Uppercase

/-!
# HTTP methods

This file defines:

* `HttpMethod`, the methods of links, and `HttpMethod.name`, their upper-case names;
* `HttpMethod.ofName?`, which reads a name in any ASCII case.
-/

namespace HyperSchema

/-- The method of a request. -/
inductive HttpMethod where
  | get
  | post
  | put
  | patch
  | delete
deriving DecidableEq, Repr

namespace HttpMethod

/-- All methods. -/
def all : List HttpMethod := [get, post, put, patch, delete]

/-- The name of a method. -/
def name : HttpMethod → String
  | get => "GET"
  | post => "POST"
  | put => "PUT"
  | patch => "PATCH"
  | delete => "DELETE"

/-- The method with a name; the case of ASCII letters does not matter. -/
def ofName? (text : String) : Option HttpMethod :=
  let upper := String.ofList (text.toList.map Text.upperAscii)
  all.find? fun method => method.name == upper

end HttpMethod

end HyperSchema
