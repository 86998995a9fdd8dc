import HyperSchema.Proofs.Endpoint.Extraction
import HyperSchema.Proofs.Json.Distinct
import HyperSchema.Proofs.Json.Equality
import HyperSchema.Proofs.Schema.Faults

/-!
# Faults of documents — an error about a node shows this node

Extraction reads the request bodies of a document as flattening reads its records, and its errors
about nodes have addresses of the same kind.  This file defines:

* `SchemaError.isAboutNode`, the errors that a walk or a record gives;
* `RequestShape.faultBelow_of_ofBody`, those of a request body;
* `Resource.error_of_ofDefinition?`, the link with whose body a definition fails;
* `Json.fault_shows_node`: the address in an error of flattening or extraction leads to a node of
  the document, and the snippet shows it.
-/

namespace HyperSchema

open Json (Below below_named below_through pointer?_of_below IsPlain)
open Schema

/-- Whether an error is about a node, and not about a link or a document. -/
def SchemaError.isAboutNode : SchemaError → Bool
  | unknownShape .. | noProperties .. => true
  | _ => false

/-! ## Request bodies -/

namespace RequestShape

variable {schema data body : Json} {members : Entries Json} {path : String} {e : SchemaError}

/-- That an object declares no properties opens the block and is no error of it. -/
theorem faultBelow_of_blockFields (h : blockFields schema path = .error e) :
    FaultBelow path schema e := by
  unfold blockFields at h
  split at h
  · cases h
  · split at h
    · cases h
    · cases h
    · rename_i others failed
      cases h
      -- An object without properties would have opened the block, so only a leaf is left.
      refine faultBelow_of_gatherObjects failed ?_
      intro members path' undeclared
      unfold propertyNames at undeclared
      split at undeclared
      · cases undeclared
      · cases undeclared
        exact absurd rfl (others path')

theorem faultBelow_of_fieldsUnder {block : String} (plain : IsPlain block)
    (h : fieldsUnder block members path = .error e) : FaultBelow path (.object members) e := by
  unfold fieldsUnder at h
  split at h
  · rename_i schema present
    rcases Option.bind_eq_some_iff.1 present with ⟨props, declared, found⟩
    exact .trans (below_property declared found plain) (faultBelow_of_blockFields h)
  · cases h

theorem faultBelow_of_ofData (h : ofData data path = .error e) : FaultBelow path data e := by
  rcases error_of_bind h with failed | ⟨types, -, h⟩
  · exact faultBelow_of_gatherObjects failed nofun
  rcases error_of_bind h with failed | ⟨attributes, -, h⟩
  · exact faultBelow_of_gatherObjects failed fun _ _ => faultBelow_of_fieldsUnder (by decide)
  rcases error_of_bind h with failed | ⟨relationships, -, h⟩
  · exact faultBelow_of_gatherObjects failed fun _ _ => faultBelow_of_fieldsUnder (by decide)
  · cases h

theorem faultBelow_of_ofBody (h : ofBody body path = .error e) : FaultBelow path body e := by
  unfold ofBody at h
  split at h
  · rename_i data envelope
    rcases Option.bind_eq_some_iff.1 envelope with ⟨props, declared, isData⟩
    rcases Option.bind_eq_some_iff.1 declared with ⟨members, isObject, declared⟩
    cases body with
    | object others =>
        cases isObject
        have fault := faultBelow_of_ofData (error_of_map h)
        exact .trans (below_property declared isData (by decide)) fault
    | _ => cases isObject
  · cases h

end RequestShape

/-! ## Links -/

namespace Link

/-- A field that is taken up changes the schema if it is the schema. -/
theorem schema_of_set {draft made : Draft} {name : String} {value : Json}
    (h : draft.set name value = .ok made) :
    made.schema = draft.schema ∨ name = "schema" ∧ made.schema = readSchema value := by
  unfold Draft.set at h
  split at h
  -- A field that is read and then stored, or stored at once; only one of them is the schema.
  all_goals try rcases ok_of_map h with ⟨read, -, rfl⟩
  all_goals try cases h
  all_goals simp

/-- A link that is written by names has its schema under this name. -/
theorem mem_of_setAll {draft made : Draft} {members : Entries Json} {body : Json}
    (h : draft.setAll members = .ok made) (declared : made.schema = some body) :
    draft.schema = some body ∨ ("schema", body) ∈ members := by
  induction members generalizing draft with
  | nil =>
      cases h
      exact .inl declared
  | cons entry rest ih =>
      rcases entry with ⟨name, value⟩
      rw [Draft.setAll] at h
      split at h
      · rename_i next set
        rcases ih h with kept | mem
        · rcases schema_of_set set with same | ⟨rfl, read⟩
          · exact .inl (same ▸ kept)
          · rw [read] at kept
            unfold readSchema at kept
            split at kept
            · cases kept
            · cases kept
              exact .inr List.mem_cons_self
        · exact .inr (List.mem_cons_of_mem _ mem)
      · cases h

theorem mem_of_ofJson {members : Entries Json} {link : Link} {body : Json}
    (h : ofJson (.object members) = .ok link) (declared : link.schema = some body) :
    ("schema", body) ∈ members := by
  rcases ok_of_bind h with ⟨draft, set, complete⟩
  unfold Draft.complete at complete
  split at complete
  any_goals cases complete
  rcases mem_of_setAll set declared with none | mem
  · cases none
  · exact mem

end Link

/-! ## Endpoints -/

namespace Endpoint

variable {docsBase : Option String} {resource path : String} {link : Link} {e : SchemaError}

/-- Warnings stop nothing. -/
theorem result_warnAll (warnings : List Warning) :
    (forIn warnings PUnit.unit fun warning _ => do
      Checked.warn warning
      pure (ForInStep.yield PUnit.unit) : Checked PUnit).result = .ok PUnit.unit := by
  induction warnings with
  | nil => rfl
  | cons warning rest ih =>
      rw [List.forIn_cons, Checked.result_bind]
      exact ih

theorem isAboutNode_of_parse {href : String} (h : (Address.parse href resource).result = .error e) :
    e.isAboutNode = false := by
  rw [Address.parse] at h
  rcases Checked.error_of_bind h with failed | ⟨done, -, h⟩
  · cases (result_warnAll _).symm.trans failed
  · dsimp only at h
    split at h
    · cases h
      rfl
    · cases h

/-- A link that fails at a node fails below its request body. -/
theorem faultBelow_of_ofLink (h : (ofLink docsBase resource link path).result = .error e)
    (aboutNode : e.isAboutNode = true) :
    ∃ body, link.schema = some body ∧ FaultBelow (path ++ "/schema") body e := by
  rw [ofLink] at h
  rcases Checked.error_of_bind h with failed | ⟨method, -, h⟩
  · unfold methodOf at failed
    split at failed
    · cases failed
    · cases failed
      cases aboutNode
  rcases Checked.error_of_bind h with failed | ⟨address, -, h⟩
  · rw [isAboutNode_of_parse failed] at aboutNode
    cases aboutNode
  rcases Checked.error_of_bind h with failed | ⟨shape, -, h⟩
  · rw [Checked.result_ofExcept] at failed
    unfold shapeOf at failed
    split at failed
    · rename_i body declared
      exact ⟨body, declared, RequestShape.faultBelow_of_ofBody failed⟩
    · cases failed
  · dsimp only at h
    split at h <;> cases h

/-- Links that fail at a node fail at one of them, at its position. -/
theorem error_of_ofLinks {i : Nat} {names : List String} {links : List Link}
    (h : (ofLinks docsBase resource i names links).result = .error e)
    (aboutNode : e.isAboutNode = true) :
    ∃ entry ∈ links.zipIdx i,
      (ofLink docsBase resource entry.1 (linkPath resource entry.2)).result = .error e := by
  induction links generalizing i names with
  | nil => cases h
  | cons link rest ih =>
      have later {names : List String}
          (h : (ofLinks docsBase resource (i + 1) names rest).result = .error e) :
          ∃ entry ∈ (link :: rest).zipIdx i,
            (ofLink docsBase resource entry.1 (linkPath resource entry.2)).result = .error e := by
        rcases ih h with ⟨entry, mem, failed⟩
        exact ⟨entry, List.mem_cons_of_mem _ mem, failed⟩
      rw [ofLinks] at h
      split at h
      · exact later h
      · rcases Checked.error_of_bind h with failed | ⟨endpoint, -, h⟩
        · exact ⟨(link, i), List.mem_cons_self, failed⟩
        · dsimp only at h
          split at h
          · cases h
            cases aboutNode
          · exact later (Checked.error_of_map h)

end Endpoint

/-! ## Definitions -/

namespace Resource

variable {docsBase : Option String} {name : String} {definition : Json} {e : SchemaError}

/-- A definition that fails at a node fails below the request body of one of its links. -/
theorem error_of_ofDefinition?
    (h : (ofDefinition? docsBase name definition).result = .error e)
    (aboutNode : e.isAboutNode = true) :
    ∃ value links, definition.member? "links" = some value ∧ Link.listOfJson value = .ok links ∧
      ∃ (link : Link) (i : Nat) (body : Json), links[i]? = some link ∧ link.schema = some body ∧
        FaultBelow (Endpoint.linkPath name i ++ "/schema") body e := by
  unfold ofDefinition? at h
  split at h
  · cases h
  · rename_i value declared
    rcases Checked.error_of_bind h with failed | ⟨links, read, h⟩
    · rw [Checked.result_ofExcept] at failed
      rcases error_of_mapError failed with ⟨fault, -, rfl⟩
      cases aboutNode
    · rw [Checked.result_ofExcept] at read
      refine ⟨value, links, declared, ok_of_mapError read, ?_⟩
      rw [ofLinks] at h
      have failed := Checked.error_of_map (Checked.error_of_map h)
      rcases Endpoint.error_of_ofLinks failed aboutNode with ⟨⟨link, i⟩, mem, failed⟩
      rcases Endpoint.faultBelow_of_ofLink failed aboutNode with ⟨body, declared, fault⟩
      exact ⟨link, i, body, List.mem_zipIdx_iff_getElem?.1 mem, declared, fault⟩

/-- Where the links are written by names, the error is one below the definition. -/
theorem faultBelow_of_ofDefinition? (distinct : definition.DistinctNames)
    (named : ∀ items, definition.member? "links" = some (.array items) →
      ∀ item ∈ items, item.members?.isSome)
    (h : (ofDefinition? docsBase name definition).result = .error e)
    (aboutNode : e.isAboutNode = true) : FaultBelow (definitionPath name) definition e := by
  rcases error_of_ofDefinition? h aboutNode with
    ⟨value, links, declared, read, link, i, body, at_, isBody, fault⟩
  cases definition with
  | object members =>
      cases value with
      | array items =>
          rcases getElem?_of_forall₂ (forall₂_of_mapM read) at_ with ⟨item, at_, made⟩
          have mem := List.mem_of_getElem? at_
          have isNamed := named items declared item mem
          cases item with
          | object fields =>
              -- A name that is not repeated leads to the value that was read.
              have inside : Json.Part (.object fields) (.object members) :=
                .member (Entries.mem_of_get? declared) (.item mem .whole)
              have present :=
                Entries.get?_of_mem (distinct _ inside) (Link.mem_of_ofJson made isBody)
              exact .trans ((below_link declared at_).trans
                (below_named (by decide) present (by decide))) fault
          | _ => cases isNamed
      | _ => cases read
  | _ => cases declared

theorem error_of_ofDefinitions {definitions : List (String × Json)}
    (h : (ofDefinitions docsBase definitions).result = .error e) :
    ∃ entry ∈ definitions, (ofDefinition? docsBase entry.1 entry.2).result = .error e := by
  induction definitions with
  | nil => cases h
  | cons entry rest ih =>
      rcases entry with ⟨name, definition⟩
      rw [ofDefinitions] at h
      rcases Checked.error_of_bind h with failed | ⟨found, -, h⟩
      · exact ⟨_, List.mem_cons_self, failed⟩
      · rcases ih (Checked.error_of_map h) with ⟨entry, mem, failed⟩
        exact ⟨entry, List.mem_cons_of_mem _ mem, failed⟩

end Resource

/-! ## Documents -/

namespace Json

variable {document : Json} {docsBase : Option String} {e : SchemaError}

/-- The documents in which an address is a pointer: no object repeats a name, as in all that are
read (`distinctNames_of_parse?`), the names of the definitions need no escape, and the links are
written by names. -/
structure IsAddressable (document : Json) : Prop where
  distinct : document.DistinctNames
  plain : ∀ found, (document.member? "definitions").bind members? = some found →
    ∀ entry ∈ found, IsPlain entry.1
  named : ∀ found, (document.member? "definitions").bind members? = some found →
    ∀ entry ∈ found, ∀ items, entry.2.member? "links" = some (.array items) →
      ∀ item ∈ items, item.members?.isSome

/-- A document with definitions is an object with a member of this name. -/
theorem eq_object_of_definitions {found : Entries Json}
    (h : (document.member? "definitions").bind members? = some found) :
    ∃ members, document = .object members ∧
      Entries.get? members "definitions" = some (.object found) := by
  rcases Option.bind_eq_some_iff.1 h with ⟨definitions, isMember, isFound⟩
  cases document with
  | object members =>
      cases definitions with
      | object others =>
          cases isFound
          exact ⟨members, rfl, isMember⟩
      | _ => cases isFound
  | _ => cases isMember

/-- Extraction that fails at a node fails at one of the definitions. -/
theorem error_of_resources (h : (document.resources docsBase).result = .error e)
    (aboutNode : e.isAboutNode = true) :
    ∃ found, (document.member? "definitions").bind members? = some found ∧
      ∃ entry ∈ found, (Resource.ofDefinition? docsBase entry.1 entry.2).result = .error e := by
  unfold resources at h
  split at h
  · rename_i found declared
    exact ⟨found, declared, Resource.error_of_ofDefinitions h⟩
  · cases h
    cases aboutNode

theorem resources_ne_noProperties (path : String) :
    (document.resources docsBase).result ≠ .error (.noProperties path) := by
  intro h
  rcases error_of_resources h rfl with ⟨found, -, entry, -, h⟩
  rcases Resource.error_of_ofDefinition? h rfl with
    ⟨value, links, -, -, link, i, body, -, -, path', node, -, same⟩
  cases same

theorem flattened_ne_noProperties (path : String) :
    document.flattened.result ≠ .error (.noProperties path) := by
  intro h
  rcases error_of_flattened h with ⟨fault, same⟩ | ⟨found, -, entry, -, path', node, -, same⟩
  · cases same
  · cases same

/-- What is below a definition of a document stands at a pointer. -/
theorem pointer?_of_faultBelow {found : Entries Json} {entry : String × Json}
    {path snippet : String} (orderly : document.IsAddressable)
    (declared : (document.member? "definitions").bind members? = some found) (mem : entry ∈ found)
    (fault : FaultBelow (definitionPath entry.1) entry.2 (.unknownShape path snippet)) :
    ∃ pointer node, path = "#" ++ pointer ∧ document.pointer? pointer = some node ∧
      SchemaError.Shows snippet node := by
  rcases fault with ⟨path', node, inside, same⟩
  cases same
  have below : Below "#" document (definitionPath entry.1) entry.2 := by
    rcases eq_object_of_definitions declared with ⟨members, rfl, present⟩
    have distinct := orderly.distinct _ (.member (Entries.mem_of_get? present) .whole)
    have address : definitionPath entry.1 = "#" ++ "/definitions/" ++ entry.1 := rfl
    rw [address]
    exact below_through (by decide) (by decide) present (Entries.get?_of_mem distinct mem)
      (orderly.plain _ declared entry mem)
  rcases pointer?_of_below (below.trans inside) with ⟨pointer, isPath, stands⟩
  exact ⟨pointer, node, isPath, stands, SchemaError.shows_snippetOf node⟩

/-- The address in an error about an unknown shape is `#` and a pointer to a node of the document,
which the snippet shows, whether flattening or extraction fails; and that an object declares no
properties is never an error of a document. -/
theorem fault_shows_node (document : Json) (docsBase : Option String) :
    (document.IsAddressable → ∀ path snippet,
      document.flattened.result = .error (.unknownShape path snippet) ∨
        (document.resources docsBase).result = .error (.unknownShape path snippet) →
      ∃ pointer node, path = "#" ++ pointer ∧ document.pointer? pointer = some node ∧
        SchemaError.Shows snippet node) ∧
    ∀ path, document.flattened.result ≠ .error (.noProperties path) ∧
      (document.resources docsBase).result ≠ .error (.noProperties path) := by
  refine ⟨?_, fun path => ⟨flattened_ne_noProperties path, resources_ne_noProperties path⟩⟩
  rintro orderly path snippet (h | h)
  · rcases error_of_flattened h with ⟨fault, same⟩ | ⟨found, declared, entry, mem, fault⟩
    · cases same
    · exact pointer?_of_faultBelow orderly declared mem fault
  · rcases error_of_resources h rfl with ⟨found, declared, entry, mem, h⟩
    refine pointer?_of_faultBelow orderly declared mem ?_
    have distinct : entry.2.DistinctNames := by
      rcases eq_object_of_definitions declared with ⟨members, rfl, present⟩
      exact orderly.distinct.part (.member (Entries.mem_of_get? present) (.member mem .whole))
    have named := orderly.named found declared entry mem
    exact Resource.faultBelow_of_ofDefinition? distinct named h rfl

/-! ## A document that fails in both -/

/-- A schema that is too long for an error. -/
def longNote : Json :=
  .object [("note", .string (String.ofList (List.replicate 60 'é'))), ("type", .string "string")]

/-- A definition with a block that is nowhere and with a link whose data may be a text. -/
def draftDocument : Json :=
  .object [("definitions", .object [
    ("draft", .object [
      ("properties", .object [("attributes", .object [("$ref", .string "#/nowhere")])]),
      ("links", .array [.object [
        ("method", .string "POST"), ("rel", .string "create"), ("href", .string "/drafts"),
        ("schema", .object [("properties", .object [("data", .object [
          ("anyOf", .array [.object [("type", .string "null")], longNote])])])])]])])])]

theorem isAddressable_draftDocument : draftDocument.IsAddressable := by
  refine ⟨by simp [draftDocument, longNote, Entries.keys], ?_, ?_⟩
  · rintro found ⟨⟩
    decide
  · rintro found ⟨⟩ entry mem items declared item inside
    cases List.mem_singleton.1 mem
    cases declared
    cases List.mem_singleton.1 inside
    rfl

/-- The second snippet ends before the letter in whose middle the limit is. -/
theorem fault_shows_node_draftDocument :
    let blockPath := "#/definitions/draft/properties/attributes"
    let blockText := "\x7b\"$ref\":\"#/nowhere\"\x7d"
    let notePath := "#/definitions/draft/links/0/schema/properties/data/anyOf/1"
    let noteText := "\x7b\"note\":\"" ++ String.ofList (List.replicate 55 'é') ++ "..."
    draftDocument.IsAddressable ∧
      draftDocument.flattened.result = .error (.unknownShape blockPath blockText) ∧
      (draftDocument.resources none).result = .error (.unknownShape notePath noteText) ∧
      (∃ pointer node, blockPath = "#" ++ pointer ∧ draftDocument.pointer? pointer = some node ∧
        SchemaError.Shows blockText node) ∧
      ∃ pointer node, notePath = "#" ++ pointer ∧ draftDocument.pointer? pointer = some node ∧
        SchemaError.Shows noteText node := by
  intro blockPath blockText notePath noteText
  have flattening :
      draftDocument.flattened.result = .error (.unknownShape blockPath blockText) := by
    decide +kernel
  have extraction :
      (draftDocument.resources none).result = .error (.unknownShape notePath noteText) := by
    decide +kernel
  have shows_ := (fault_shows_node draftDocument none).1 isAddressable_draftDocument
  exact ⟨isAddressable_draftDocument, flattening, extraction, shows_ _ _ (.inl flattening),
    shows_ _ _ (.inr extraction)⟩

end Json

end HyperSchema
