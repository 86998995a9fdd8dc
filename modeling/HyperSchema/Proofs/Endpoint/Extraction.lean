import HyperSchema.Endpoint.Resources
import HyperSchema.Proofs.Endpoint.RequestShape

/-!
# Extraction — where the endpoints of a document come from

Extraction that succeeds gives each link that is not private its endpoint.  This file defines:

* `Endpoint.publicLinks`, the links that become endpoints, with their positions;
* `Endpoint.forall₂_of_ofLinks`: the endpoints of some links stand in the order of these links;
* `Resource.forall₂_of_ofDefinitions`: the resources stand in the order of the definitions;
* `Json.exists_endpoint_of_resources`: every such link has its endpoint in the resource of its
  definition.
-/

namespace HyperSchema

namespace Endpoint

/-! ## Endpoints of links -/

/-- The links that are not private, each with its position; the first link has position `i`. -/
def publicLinks (i : Nat) (links : List Link) : List (Link × Nat) :=
  (links.zipIdx i).filter fun entry => !entry.1.isPrivate

variable {docsBase : Option String} {resource path : String} {link : Link}

/-- A link that becomes an endpoint has a known method, an address and a request that can be read,
and these and its own fields make the endpoint. -/
theorem parts_of_ofLink {endpoint : Endpoint}
    (h : (ofLink docsBase resource link path).result = .ok endpoint) :
    ∃ method address shape, methodOf resource link = .ok method ∧
      (Address.parse link.href resource).result = .ok address ∧ shapeOf link path = .ok shape ∧
      endpoint = {
        rel := link.rel
        name := methodName link.rel
        rawName := rawMethodName link.rel
        returnsCollection := returnsCollectionOf link.rel
        address := address.render
        method
        comment := commentOf link
        docs := docsBase.map fun base => docsOf base resource link.rel
        parameter := address.parameter
        requestTypeName := link.schema.map fun _ => schemaTypeName resource link.rel .request
        requestShape := shape
        queryTypeName := link.hrefSchema.map fun _ => schemaTypeName resource link.rel .query
        queryRequired := queryRequiredOf link
        responseTypeName := responseTypeNameOf resource link
        pageLimits := link.hrefSchema.bind pageLimitsOf
        deprecationNote := link.deprecation.bind Deprecation.text?
        simpleMethodAvailable := (shape.bind RequestShape.ambiguity?).isNone } := by
  rw [ofLink] at h
  rcases Checked.ok_of_bind h with ⟨method, known, h⟩
  rcases Checked.ok_of_bind h with ⟨address, parsed, h⟩
  rcases Checked.ok_of_bind h with ⟨shape, read, h⟩
  refine ⟨method, address, shape, known, parsed, read, ?_⟩
  dsimp only at h
  cases ambiguity : shape.bind RequestShape.ambiguity? with
  | none =>
      rw [ambiguity] at h
      cases h
      rfl
  | some reason =>
      rw [ambiguity] at h
      cases h
      rfl

/-- What the endpoint of a link says about the request. -/
theorem request_of_ofLink {endpoint : Endpoint}
    (h : (ofLink docsBase resource link path).result = .ok endpoint) :
    ∃ shape, shapeOf link path = .ok shape ∧ endpoint.requestShape = shape ∧
      endpoint.simpleMethodAvailable = (shape.bind RequestShape.ambiguity?).isNone := by
  rcases parts_of_ofLink h with ⟨method, address, shape, -, -, read, rfl⟩
  exact ⟨shape, read, rfl, rfl⟩

/-- What the methods of the endpoint of a link are called. -/
theorem names_of_ofLink {endpoint : Endpoint}
    (h : (ofLink docsBase resource link path).result = .ok endpoint) :
    endpoint.name = methodName link.rel ∧ endpoint.rawName = rawMethodName link.rel := by
  rcases parts_of_ofLink h with ⟨method, address, shape, -, -, -, rfl⟩
  exact ⟨rfl, rfl⟩

/-- The endpoints of some links are those of the links that are not private, in order. -/
theorem forall₂_of_ofLinks {i : Nat} {names : List String} {links : List Link}
    {endpoints : List Endpoint}
    (h : (ofLinks docsBase resource i names links).result = .ok endpoints) :
    List.Forall₂ (fun entry endpoint =>
        (ofLink docsBase resource entry.1 (linkPath resource entry.2)).result = .ok endpoint)
      (publicLinks i links) endpoints := by
  induction links generalizing i names endpoints with
  | nil =>
      cases h
      exact .nil
  | cons link rest ih =>
      rw [ofLinks] at h
      rw [publicLinks, List.zipIdx_cons]
      split at h
      · rename_i isPrivate
        rw [List.filter_cons_of_neg (by simp [isPrivate])]
        exact ih h
      · rename_i isPublic
        rw [List.filter_cons_of_pos (by simp [isPublic])]
        rcases Checked.ok_of_bind h with ⟨endpoint, made, h⟩
        dsimp only at h
        split at h
        · cases h
        · rcases Checked.ok_of_bind h with ⟨others, tail, h⟩
          cases h
          exact .cons made (ih tail)

end Endpoint

/-! ## Resources of definitions -/

namespace Resource

variable {docsBase : Option String} {name : String} {definition : Json}

/-- A definition with links becomes a resource if one of them is not private. -/
theorem found_of_ofDefinition? {found : Option Resource} {value : Json} {links : List Link}
    (h : (ofDefinition? docsBase name definition).result = .ok found)
    (declared : definition.member? "links" = some value)
    (read : Link.listOfJson value = .ok links) :
    ∃ resource, (ofLinks docsBase name links).result = .ok resource ∧
      found = if resource.endpoints.isEmpty then none else some resource := by
  rw [ofDefinition?, declared] at h
  dsimp only at h
  rcases Checked.ok_of_bind h with ⟨links', parsed, h⟩
  rw [Checked.result_ofExcept, read] at parsed
  cases parsed
  rcases Checked.ok_of_bind h with ⟨resource, made, h⟩
  cases h
  exact ⟨resource, made, rfl⟩

/-- The resource of some links lists their endpoints. -/
theorem endpoints_of_ofLinks {resource : Resource} {links : List Link}
    (h : (ofLinks docsBase name links).result = .ok resource) :
    resource.typeName = name ∧
      (Endpoint.ofLinks docsBase name 0 [] links).result = .ok resource.endpoints := by
  rw [ofLinks] at h
  rcases Checked.ok_of_bind h with ⟨endpoints, made, h⟩
  cases h
  exact ⟨rfl, made⟩

/-- The resources of some definitions are what is found for each of them, in order. -/
theorem forall₂_of_ofDefinitions {definitions : List (String × Json)} {resources : List Resource}
    (h : (ofDefinitions docsBase definitions).result = .ok resources) :
    ∃ found, List.Forall₂ (fun entry found =>
        (ofDefinition? docsBase entry.1 entry.2).result = .ok found) definitions found ∧
      resources = found.flatMap Option.toList := by
  induction definitions generalizing resources with
  | nil =>
      cases h
      exact ⟨[], .nil, rfl⟩
  | cons entry rest ih =>
      rcases entry with ⟨name, definition⟩
      rw [ofDefinitions] at h
      rcases Checked.ok_of_bind h with ⟨first, head, h⟩
      rcases Checked.ok_of_bind h with ⟨others, tail, h⟩
      cases h
      rcases ih tail with ⟨found, each, rfl⟩
      exact ⟨first :: found, .cons head each, rfl⟩

end Resource

/-! ## Resources of a document -/

namespace Json

variable {docsBase : Option String} {document : Json} {resources : List Resource}

theorem ofDefinitions_of_resources {definitions : List (String × Json)}
    (h : (document.resources docsBase).result = .ok resources)
    (found : (document.member? "definitions").bind Json.members? = some definitions) :
    (Resource.ofDefinitions docsBase definitions).result = .ok resources := by
  rw [Json.resources, found] at h
  exact h

/-- A link that is not private has its endpoint in the resource of its definition. -/
theorem exists_endpoint_of_resources {definitions : List (String × Json)} {name : String}
    {definition value : Json} {links : List Link} {link : Link} {i : Nat}
    (h : (document.resources docsBase).result = .ok resources)
    (found : (document.member? "definitions").bind Json.members? = some definitions)
    (mem : (name, definition) ∈ definitions) (declared : definition.member? "links" = some value)
    (read : Link.listOfJson value = .ok links) (at_ : links[i]? = some link)
    (isPublic : link.isPrivate = false) :
    ∃ resource ∈ resources, resource.typeName = name ∧ ∃ endpoint ∈ resource.endpoints,
      (Endpoint.ofLink docsBase name link (Endpoint.linkPath name i)).result = .ok endpoint := by
  rcases Resource.forall₂_of_ofDefinitions (ofDefinitions_of_resources h found) with
    ⟨each, made, rfl⟩
  rcases exists_of_forall₂ made mem with ⟨some?, inside, one⟩
  rcases Resource.found_of_ofDefinition? one declared read with ⟨resource, built, rfl⟩
  rcases Resource.endpoints_of_ofLinks built with ⟨isNamed, listed⟩
  have stands : (link, i) ∈ Endpoint.publicLinks 0 links :=
    List.mem_filter.2 ⟨List.mem_zipIdx_iff_getElem?.2 at_, by simp [isPublic]⟩
  rcases exists_of_forall₂ (Endpoint.forall₂_of_ofLinks listed) stands with
    ⟨endpoint, isListed, ofLink⟩
  have nonempty : resource.endpoints.isEmpty = false :=
    List.isEmpty_eq_false_iff.2 (List.ne_nil_of_mem isListed)
  rw [nonempty] at inside
  refine ⟨resource, List.mem_flatMap.2 ⟨_, inside, ?_⟩, isNamed, endpoint, isListed, ofLink⟩
  simp

end Json

end HyperSchema
