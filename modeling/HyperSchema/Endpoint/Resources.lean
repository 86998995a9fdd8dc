import HyperSchema.Endpoint.Basic
import HyperSchema.Endpoint.Link
import HyperSchema.Endpoint.Name
import HyperSchema.Schema.Flat
import HyperSchema.Text.Blank
import HyperSchema.Text.Infix

/-!
# Endpoints of a document

The operations that the links of a document declare.  This file defines:

* `Endpoint.ofLink`, the endpoint of one link;
* `Resource.ofLinks`, the endpoints of all links of a definition that are not private;
* `Resource.ofDefinition?` and `Json.resources`, those of a whole document.

The document has its references inlined.  A reference that is left in a request body contributes no
record to its shape: the objects beside it decide alone.  The methods of a resource have distinct
names.
-/

namespace HyperSchema

namespace Endpoint

/-! ## Parts of an endpoint -/

/-- The method of a link. -/
def methodOf (resource : String) (link : Link) : Except SchemaError HttpMethod :=
  match HttpMethod.ofName? link.method with
  | some method => .ok method
  | none => .error (.unknownMethod resource link.rel link.method)

/-- The shape of the request body of a link. -/
def shapeOf (link : Link) (path : String) : Except SchemaError (Option RequestShape) :=
  match link.schema with
  | some body => RequestShape.ofBody body (path ++ "/schema")
  | none => .ok none

/-- Whether a link gives a collection back. -/
def returnsCollectionOf (rel : String) : Bool :=
  Text.hasInfix "query".toList rel.toList || Text.hasInfix "instances".toList rel.toList

/-- The type of the response: that of the job, if there is one. -/
def responseTypeNameOf (resource : String) (link : Link) : Option String :=
  if link.jobSchema.isSome then some (schemaTypeName resource link.rel .jobResult)
  else if link.targetSchema.isSome then some (schemaTypeName resource link.rel .response)
  else none

/-- Whether the query parameters of a link may not be left out. -/
def queryRequiredOf (link : Link) : Bool :=
  match (link.hrefSchema.bind fun schema => schema.member? "required").bind Json.items? with
  | some names => !names.isEmpty
  | none => false

/-- The description of a link, or its title if the description is blank. -/
def commentOf (link : Link) : String :=
  match link.description with
  | some text => if text.toList.all Text.isBlank then link.title else text
  | none => link.title

/-- The address of the documentation of a link. -/
def docsOf (base resource rel : String) : String :=
  String.ofList (Text.dropTrailing '/' base.toList) ++ "/" ++ Naming.kebabCase resource ++ "/" ++
    Naming.kebabCase rel

/-- The properties that a schema declares. -/
def propertiesOf (schema : Json) : Option (Entries Json) :=
  schema.members?.bind Schema.properties

/-- The limits of a page in the schema of query parameters. -/
def pageLimitsOf (schema : Json) : Option PageLimits := do
  let page ← (← propertiesOf schema).get? "page"
  let limit ← (← propertiesOf page).get? "limit"
  return {
    standard := (limit.member? "default").bind Json.natural?
    greatest := (limit.member? "maximum").bind Json.natural? }

/-! ## Links -/

/-- The endpoint of a link.  A request whose shape is ambiguous is reported. -/
def ofLink (docsBase : Option String) (resource : String) (link : Link) (path : String) :
    Checked Endpoint := do
  let method ← Checked.ofExcept (methodOf resource link)
  let address ← Address.parse link.href resource
  let shape ← Checked.ofExcept (shapeOf link path)
  let ambiguity := shape.bind RequestShape.ambiguity?
  if let some reason := ambiguity then
    Checked.warn (.ambiguousRequest resource link.rel reason)
  return {
    rel := link.rel
    name := methodName link.rel
    rawName := rawMethodName link.rel
    returnsCollection := returnsCollectionOf link.rel
    address := address.render
    method
    comment := commentOf link
    docs := docsBase.map fun base => docsOf base resource link.rel
    parameter := address.parameter
    requestTypeName := link.schema.map fun _ => schemaTypeName resource link.rel .request
    requestShape := shape
    queryTypeName := link.hrefSchema.map fun _ => schemaTypeName resource link.rel .query
    queryRequired := queryRequiredOf link
    responseTypeName := responseTypeNameOf resource link
    pageLimits := link.hrefSchema.bind pageLimitsOf
    deprecationNote := link.deprecation.bind Deprecation.text?
    simpleMethodAvailable := ambiguity.isNone }

/-- The address of a link. -/
def linkPath (resource : String) (i : Nat) : String :=
  Schema.definitionPath resource ++ "/links/" ++ toString i

/-- The endpoints of the links from position `i` on, after methods with the given names. -/
def ofLinks (docsBase : Option String) (resource : String) :
    Nat → List String → List Link → Checked (List Endpoint)
  | _, _, [] => pure []
  | i, names, link :: rest =>
      if link.isPrivate then ofLinks docsBase resource (i + 1) names rest
      else do
        -- A fault of the link itself comes before a clash of names.
        let endpoint ← ofLink docsBase resource link (linkPath resource i)
        if names.contains endpoint.name then
          throw (SchemaError.repeatedMethod resource endpoint.name)
        return endpoint :: (← ofLinks docsBase resource (i + 1) (endpoint.name :: names) rest)

end Endpoint

/-! ## Resources -/

namespace Resource

/-- The resource of a definition with some links. -/
def ofLinks (docsBase : Option String) (name : String) (links : List Link) : Checked Resource := do
  let endpoints ← Endpoint.ofLinks docsBase name 0 [] links
  return {
    typeName := name
    client := Naming.camelCase (Naming.plural name)
    className := Naming.pascalCase name
    endpoints }

/-- The resource of a definition, if it has links that are not private. -/
def ofDefinition? (docsBase : Option String) (name : String) (definition : Json) :
    Checked (Option Resource) :=
  match definition.member? "links" with
  | none => pure none
  | some links => do
      let links ← Checked.ofExcept ((Link.listOfJson links).mapError (.faultyLinks name))
      let resource ← ofLinks docsBase name links
      return if resource.endpoints.isEmpty then none else some resource

/-- The resources of some definitions. -/
def ofDefinitions (docsBase : Option String) :
    List (String × Json) → Checked (List Resource)
  | [] => pure []
  | (name, definition) :: rest => do
      let found ← ofDefinition? docsBase name definition
      return found.toList ++ (← ofDefinitions docsBase rest)

end Resource

/-- The resources of a document with its references inlined, in the order of the definitions. -/
def Json.resources (docsBase : Option String) (document : Json) : Checked (List Resource) :=
  match (document.member? "definitions").bind Json.members? with
  | some found => Resource.ofDefinitions docsBase found
  | none => throw (SchemaError.faultyDocument .missingDefinitions)

end HyperSchema
