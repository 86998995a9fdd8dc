import HyperSchema.Endpoint.Method
import HyperSchema.Endpoint.RequestShape
import HyperSchema.Endpoint.Address

/-!
# Endpoints and resources

What a client generator has to know about an API.  This file defines:

* `PageLimits`, the limits of a page;
* `Endpoint`, one operation;
* `Resource`, the operations of one definition.
-/

namespace HyperSchema

/-- The limits of the pages of a collection. -/
structure PageLimits where
  standard : Option Nat
  greatest : Option Nat
deriving DecidableEq, Repr

/-- What a client has to know about one operation. -/
structure Endpoint where
  /-- The relation of the link. -/
  rel : String
  /-- The name of the method that works on entities. -/
  name : String
  /-- The name of the method that works on raw payloads. -/
  rawName : String
  returnsCollection : Bool
  /-- The address as the inside of a template literal. -/
  address : String
  method : HttpMethod
  comment : String
  docs : Option String
  parameter : Option Address.Parameter
  requestTypeName : Option String
  requestShape : Option RequestShape
  queryTypeName : Option String
  queryRequired : Bool
  responseTypeName : Option String
  pageLimits : Option PageLimits
  deprecationNote : Option String
  /-- Whether the method that works on entities can be offered. -/
  simpleMethodAvailable : Bool
deriving DecidableEq, Repr

/-- The operations of one definition. -/
structure Resource where
  /-- The name of the definition. -/
  typeName : String
  /-- The name under which a client offers the operations. -/
  client : String
  /-- The name of the generated class. -/
  className : String
  endpoints : List Endpoint
deriving DecidableEq, Repr

end HyperSchema
