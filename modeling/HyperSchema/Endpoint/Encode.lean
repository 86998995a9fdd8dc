import HyperSchema.Endpoint.Basic

/-!
# Resources as JSON

The written form of what is known about an API.  This file defines:

* `Endpoint.json` and `Resource.json`;
* `Resource.listJson`, the form of a list of resources.

The members stand in a fixed order.  What an endpoint does not have is left out; open types and
field sets are written as a star.
-/

namespace HyperSchema

/-- The text for what is left open. -/
def openText : String := "*"

/-- The type of a record as JSON. -/
def RecordType.json : RecordType → Json
  | only name => .string name
  | any => .string openText

/-- The fields of a record as JSON. -/
def Fields.json : Fields → Json
  | known names => .array (names.map Json.string)
  | any => .string openText

/-- The shape of a request as JSON. -/
def RequestShape.json (shape : RequestShape) : Json :=
  .object [
    ("type", shape.recordType.json),
    ("attributes", shape.attributes.json),
    ("relationships", shape.relationships.json)]

/-- The parameter of an address as JSON. -/
def Address.Parameter.json (parameter : Address.Parameter) : Json :=
  .object [
    ("variableName", .string parameter.name),
    ("isEntityId", .bool parameter.isOwn),
    ("relType", .string parameter.entity)]

/-- A limit as JSON. -/
def limitJson : Option Nat → Json
  | some limit => .number (.integer limit)
  | none => .null

/-- The limits of a page as JSON. -/
def PageLimits.json (limits : PageLimits) : Json :=
  .object [
    ("defaultLimit", limitJson limits.standard),
    ("maxLimit", limitJson limits.greatest)]

/-- A member that is left out where there is no value. -/
def optionalMember {α : Type} (name : String) (encode : α → Json) (value : Option α) :
    Entries Json :=
  match value with
  | some value => [(name, encode value)]
  | none => []

/-- An endpoint as JSON. -/
def Endpoint.json (endpoint : Endpoint) : Json :=
  .object ([
      ("rel", .string endpoint.rel),
      ("name", .string endpoint.name),
      ("rawName", .string endpoint.rawName),
      ("returnsCollection", .bool endpoint.returnsCollection),
      ("urlTemplate", .string endpoint.address),
      ("method", .string endpoint.method.name),
      ("comment", .string endpoint.comment)] ++
    optionalMember "docUrl" .string endpoint.docs ++
    optionalMember "urlPlaceholder" Address.Parameter.json endpoint.parameter ++
    optionalMember "requestBodyTypeName" .string endpoint.requestTypeName ++
    optionalMember "requestStructure" RequestShape.json endpoint.requestShape ++
    optionalMember "queryParamsTypeName" .string endpoint.queryTypeName ++
    [("queryParamsRequired", .bool endpoint.queryRequired)] ++
    optionalMember "responseTypeName" .string endpoint.responseTypeName ++
    optionalMember "pagination" PageLimits.json endpoint.pageLimits ++
    optionalMember "deprecatedNote" .string endpoint.deprecationNote ++
    [("simpleMethodAvailable", .bool endpoint.simpleMethodAvailable)])

/-- A resource as JSON. -/
def Resource.json (resource : Resource) : Json :=
  .object [
    ("resourceTypeName", .string resource.typeName),
    ("namespace", .string resource.client),
    ("className", .string resource.className),
    ("endpoints", .array (resource.endpoints.map Endpoint.json))]

/-- Resources as JSON. -/
def Resource.listJson (resources : List Resource) : Json :=
  .array (resources.map Resource.json)

end HyperSchema
