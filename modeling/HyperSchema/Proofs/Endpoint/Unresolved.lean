import HyperSchema.Proofs.Endpoint.Extraction

/-!
# Unresolved requests — what a reference that is left says about a request

A walk passes over references, so that a reference in the data of a request has no part in its
shape.  This file defines:

* `Schema.Pins`, the type that all objects in reach agree on;
* `Endpoint.request_of_pins`, the shape of a link in terms of the objects in its data;
* `Json.request_open_iff_not_pins`: data, with references left in it or not, keeps the simple method
  from being offered if and only if its objects agree on no type.
-/

namespace HyperSchema

open Schema

/-- Data pins a type: it reaches an object, and every object in reach has this type. -/
def Schema.Pins (data : Json) (type : String) : Prop :=
  (∃ members, Reaches (.object members) data) ∧
    ∀ members, Reaches (.object members) data → RequestShape.typeOf members = .only type

theorem RecordType.eq_any_iff {type : RecordType} : type = .any ↔ ∀ name, type ≠ .only name := by
  cases type with
  | only name =>
      constructor
      · intro same
        cases same
      · intro other
        exact (other name rfl).elim
  | any => simp

/-- The shape of a request is open in its type if and only if the data pins none, and then the
simple method is not offered. -/
theorem Endpoint.request_of_pins {docsBase : Option String} {resource path : String} {link : Link}
    {endpoint : Endpoint} {body data : Json}
    (h : (Endpoint.ofLink docsBase resource link path).result = .ok endpoint)
    (request : link.schema = some body) (envelope : RequestShape.data? body = some data) :
    ∃ shape, endpoint.requestShape = some shape ∧
      ((shape.recordType = .any ∧ endpoint.simpleMethodAvailable = false) ↔
        ¬ ∃ type, Pins data type) := by
  rcases Endpoint.request_of_ofLink h with ⟨found, read, isShape, available⟩
  rw [Endpoint.shapeOf, request] at read
  rcases RequestShape.shape_of_ofBody read envelope with ⟨shape, rfl, made⟩
  have open_iff : shape.recordType = .any ↔ ¬ ∃ type, Pins data type := by
    rw [RecordType.eq_any_iff, not_exists]
    exact forall_congr' fun type => not_congr (RequestShape.recordType_eq_only_iff made)
  refine ⟨shape, isShape, ?_⟩
  rw [← open_iff]
  constructor
  · exact fun both => both.1
  · intro isOpen
    refine ⟨isOpen, ?_⟩
    rw [available, Option.bind_some, RequestShape.ambiguity?_of_any isOpen]
    rfl

namespace Json

/-- In a document whose extraction succeeds, a link that is not private and has data has an
endpoint; the type in its shape is open, and the simple method is not offered, if and only if the
objects in the data agree on no type.  References in the data have no part in this. -/
theorem request_open_iff_not_pins {docsBase : Option String} {document : Json}
    {resources : List Resource} {definitions : List (String × Json)} {name : String}
    {definition value body data : Json} {links : List Link} {link : Link} {i : Nat}
    (h : (document.resources docsBase).result = .ok resources)
    (found : (document.member? "definitions").bind Json.members? = some definitions)
    (mem : (name, definition) ∈ definitions) (declared : definition.member? "links" = some value)
    (read : Link.listOfJson value = .ok links) (at_ : links[i]? = some link)
    (isPublic : link.isPrivate = false) (request : link.schema = some body)
    (envelope : RequestShape.data? body = some data) :
    ∃ resource ∈ resources, resource.typeName = name ∧ ∃ endpoint ∈ resource.endpoints,
      (Endpoint.ofLink docsBase name link (Endpoint.linkPath name i)).result = .ok endpoint ∧
        ∃ shape, endpoint.requestShape = some shape ∧
          ((shape.recordType = .any ∧ endpoint.simpleMethodAvailable = false) ↔
            ¬ ∃ type, Pins data type) := by
  rcases exists_endpoint_of_resources h found mem declared read at_ isPublic with
    ⟨resource, inside, isNamed, endpoint, isListed, made⟩
  exact ⟨resource, inside, isNamed, endpoint, isListed, made,
    Endpoint.request_of_pins made request envelope⟩

/-! ## A document with a cyclic reference -/

/-- A record of one type. -/
def nodeRecord : List (String × Json) :=
  [("properties", .object [("type", .object [("const", .string "node")])])]

/-- A choice between a reference that could not be replaced and a record. -/
def nodeOrReference : Json :=
  .object [("anyOf", .array [.object [("$ref", .string "#/definitions/node")], .object nodeRecord])]

/-- The body of a request for such a choice. -/
def nodeBody : Json :=
  .object [("properties", .object [("data", nodeOrReference)])]

/-- The links of a node, as they are written. -/
def nodeLinks : Json :=
  .array [.object [("method", .string "POST"), ("rel", .string "create"),
    ("href", .string "/nodes"), ("schema", nodeBody)]]

/-- A definition that refers to itself, with its references inlined. -/
def nodeDefinition : Json :=
  .object [("anyOf", .array [nodeOrReference, .object nodeRecord]), ("links", nodeLinks)]

/-- The document with this definition. -/
def nodeDocument : Json :=
  .object [("definitions", .object [("node", nodeDefinition)])]

/-- The link of a node. -/
def nodeLink : Link where
  method := "POST"
  rel := "create"
  title := ""
  description := none
  href := "/nodes"
  hrefSchema := none
  schema := some nodeBody
  targetSchema := none
  jobSchema := none
  isPrivate := false
  deprecation := none

/-- What is extracted from the document. -/
def nodeResource : Resource where
  typeName := "node"
  client := "nodes"
  className := "Node"
  endpoints := [{
    rel := "create"
    name := "create"
    rawName := "rawCreate"
    returnsCollection := false
    address := "/nodes"
    method := .post
    comment := ""
    docs := none
    parameter := none
    requestTypeName := some "NodeCreateSchema"
    requestShape := some ⟨.only "node", .known [], .known []⟩
    queryTypeName := none
    queryRequired := false
    responseTypeName := none
    pageLimits := none
    deprecationNote := none
    simpleMethodAvailable := true }]

theorem reaches_nodeOrReference {members : List (String × Json)}
    (h : Reaches (.object members) nodeOrReference) : members = nodeRecord := by
  cases h with
  | here shape => cases shape
  | branch shape mem inside =>
      cases shape
      rcases List.mem_pair.1 mem with rfl | rfl
      · cases inside with
        | here shape => cases shape
        | branch shape => cases shape
        | item shape => cases shape
        | place shape => cases shape
      · cases inside with
        | here shape =>
            cases shape
            rfl
        | branch shape => cases shape
        | item shape => cases shape
        | place shape => cases shape
  | item shape => cases shape
  | place shape => cases shape

/-- A record beside a cyclic reference pins the type, and the simple method is offered. -/
theorem request_of_nodeDocument :
    (nodeDocument.resources none).result = .ok [nodeResource] ∧
      (∃ reference, Reaches (.reference reference) nodeOrReference) ∧
      ∃ resource ∈ [nodeResource], resource.typeName = "node" ∧ ∃ endpoint ∈ resource.endpoints,
        ∃ shape, endpoint.requestShape = some shape ∧
          ¬ (shape.recordType = .any ∧ endpoint.simpleMethodAvailable = false) := by
  have success : (nodeDocument.resources none).result = .ok [nodeResource] := by decide +kernel
  have unresolved : ∃ reference, Reaches (.reference reference) nodeOrReference :=
    ⟨"#/definitions/node", .branch rfl (List.mem_cons_self) (.here rfl)⟩
  have pins : Pins nodeOrReference "node" := by
    refine ⟨⟨nodeRecord, .branch rfl (List.mem_cons_of_mem _ List.mem_cons_self) (.here rfl)⟩, ?_⟩
    intro members reach
    rw [reaches_nodeOrReference reach]
    rfl
  rcases request_open_iff_not_pins success rfl List.mem_cons_self rfl
    (show Link.listOfJson nodeLinks = .ok [nodeLink] from rfl)
    (show [nodeLink][0]? = some nodeLink from rfl) rfl rfl rfl with
    ⟨resource, inside, isNamed, endpoint, isListed, -, shape, isShape, iff⟩
  refine ⟨success, unresolved, resource, inside, isNamed, endpoint, isListed, shape, isShape, ?_⟩
  rw [iff, not_not]
  exact ⟨"node", pins⟩

end Json

end HyperSchema
