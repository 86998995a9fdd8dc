import HyperSchema.Proofs.Endpoint.Extraction
import HyperSchema.Proofs.Schema.Copies

/-!
# Ownership — every resource belongs to the definition that has its links

References are replaced before endpoints are extracted, so that a link may be met in many places.
This file defines:

* `Link.writtenFields` and `Link.isMarkedPrivate`, the fields of a link as it is written and whether
  they keep it private;
* `Link.publicEntries` and `Resource.publicEntries`, the links that are written and not private, of
  a list and of a definition;
* `Endpoint.OfEntry`, the endpoint of a link as it is written;
* `Json.ownEntries`, the links of a definition itself that are not private.

`Resource.found_of_ofDefinitions` says what becomes of one definition among others, and
`Json.resources_inlined` what becomes of the definitions of a document: those with own links that
are not private, and only those, become resources, with one endpoint for each such link.
-/

namespace HyperSchema

/-! ## Private links -/

namespace Link

/-- The fields of a link as it is written, by names or by position. -/
def writtenFields (entry : Json) : Entries Json :=
  match entry with
  | .object members => members
  | .array items => fieldNames.zip items
  | _ => []

/-- Whether a link as it is written is private. -/
def isMarkedPrivate (entry : Json) : Bool :=
  match (writtenFields entry).get? "private" with
  | some (.bool flag) => flag
  | _ => false

theorem nodup_keys_writtenFields {entry : Json} (distinct : entry.DistinctNames) :
    (writtenFields entry).keys.Nodup := by
  cases entry with
  | object members => exact distinct members .whole
  | array items =>
      have names : fieldNames.Nodup := by decide
      exact names.sublist (Entries.keys_zip_sublist fieldNames items)
  | _ => exact List.nodup_nil

/-- A field that is taken up changes whether the link is private if it is that flag. -/
theorem isPrivate_of_set {draft made : Draft} {name : String} {value : Json}
    (h : draft.set name value = .ok made) :
    name ≠ "private" ∧ made.isPrivate = draft.isPrivate ∨
      name = "private" ∧ value = .bool made.isPrivate := by
  by_cases isFlag : name = "private"
  · subst isFlag
    rw [Draft.set] at h
    rcases ok_of_map h with ⟨flag, read, rfl⟩
    unfold readFlag at read
    split at read
    · cases read
      exact .inr ⟨rfl, rfl⟩
    · cases read
  · refine .inl ⟨isFlag, ?_⟩
    unfold Draft.set at h
    split at h
    all_goals try rcases ok_of_map h with ⟨read, -, rfl⟩
    all_goals try cases h
    all_goals first | rfl | exact absurd rfl isFlag

/-- The flag is the one that is written, or as it was. -/
theorem isPrivate_of_setAll {draft made : Draft} {fields : Entries Json}
    (distinct : fields.keys.Nodup) (h : draft.setAll fields = .ok made) :
    fields.get? "private" = none ∧ made.isPrivate = draft.isPrivate ∨
      fields.get? "private" = some (.bool made.isPrivate) := by
  induction fields generalizing draft with
  | nil =>
      cases h
      exact .inl ⟨rfl, rfl⟩
  | cons field rest ih =>
      rcases field with ⟨name, value⟩
      rcases List.nodup_cons.1 distinct with ⟨fresh, behind⟩
      rw [Draft.setAll] at h
      split at h
      · rename_i next set
        rw [Entries.get?_cons]
        rcases isPrivate_of_set set with ⟨other, same⟩ | ⟨rfl, rfl⟩
        · rw [if_neg other, ← same]
          exact ih behind h
        · -- The flag is not written twice, so what follows keeps it.
          have missing : Entries.get? rest "private" = none := Entries.get?_eq_none_iff.2 fresh
          rcases ih behind h with ⟨-, kept⟩ | found
          · rw [if_pos rfl, kept]
            exact .inr rfl
          · cases missing.symm.trans found
      · cases h

theorem exists_draft_of_ofJson {entry : Json} {link : Link} (h : ofJson entry = .ok link) :
    ∃ draft, Draft.setAll {} (writtenFields entry) = .ok draft ∧ draft.complete = .ok link := by
  cases entry with
  | object members => exact ok_of_bind h
  | array items =>
      rcases ok_of_bind h with ⟨draft, set, h⟩
      refine ⟨draft, set, ?_⟩
      split at h
      · cases h
      · exact h
  | _ => cases h

/-- A link that is read is private if it is written so. -/
theorem isPrivate_of_ofJson {entry : Json} {link : Link} (distinct : entry.DistinctNames)
    (h : ofJson entry = .ok link) : link.isPrivate = isMarkedPrivate entry := by
  rcases exists_draft_of_ofJson h with ⟨draft, set, complete⟩
  have same : link.isPrivate = draft.isPrivate := by
    unfold Draft.complete at complete
    split at complete
    any_goals cases complete
    rfl
  rw [same, isMarkedPrivate]
  rcases isPrivate_of_setAll (nodup_keys_writtenFields distinct) set with ⟨none, unset⟩ | written
  · rw [none, unset]
  · rw [written]

/-! ## Links that are not private -/

/-- The entries of a list of links that are not private, each with its position. -/
def publicEntries (links : Json) : List (Json × Nat) :=
  (links.items?.getD []).zipIdx.filter fun entry => !isMarkedPrivate entry.1

/-- The links that are not private are read from the entries that are not, in order. -/
theorem forall₂_publicEntries {value : Json} {links : List Link} (distinct : value.DistinctNames)
    (h : listOfJson value = .ok links) :
    List.Forall₂ (fun written read => ofJson written.1 = .ok read.1 ∧ written.2 = read.2)
      (publicEntries value) (Endpoint.publicLinks 0 links) := by
  cases value with
  | array items =>
      rw [Json.distinctNames_array] at distinct
      -- Positions count private links as well, so the position at the start is general.
      have each : ∀ (i : Nat) {items : List Json} {links : List Link},
          (∀ item ∈ items, item.DistinctNames) →
          List.Forall₂ (fun item link => ofJson item = .ok link) items links →
          List.Forall₂ (fun written read => ofJson written.1 = .ok read.1 ∧ written.2 = read.2)
            ((items.zipIdx i).filter fun entry => !isMarkedPrivate entry.1)
            (Endpoint.publicLinks i links) := by
        intro i items links distinct read
        induction read generalizing i with
        | nil => exact .nil
        | cons head tail ih =>
            rename_i item link items links
            rw [List.forall_mem_cons] at distinct
            have same := isPrivate_of_ofJson distinct.1 head
            rw [Endpoint.publicLinks, List.zipIdx_cons, List.zipIdx_cons]
            cases marked : isMarkedPrivate item with
            | true =>
                rw [List.filter_cons_of_neg (by simp [marked]),
                  List.filter_cons_of_neg (by simp [same, marked])]
                exact ih (i + 1) distinct.2
            | false =>
                rw [List.filter_cons_of_pos (by simp [marked]),
                  List.filter_cons_of_pos (by simp [same, marked])]
                exact .cons ⟨head, rfl⟩ (ih (i + 1) distinct.2)
      exact each 0 distinct (forall₂_of_mapM h)
  | _ => cases h

end Link

/-! ## Endpoints of entries -/

namespace Endpoint

/-- The endpoint of a link as it is written at a position. -/
def OfEntry (docsBase : Option String) (resource : String) (entry : Json × Nat)
    (endpoint : Endpoint) : Prop :=
  ∃ link, Link.ofJson entry.1 = .ok link ∧
    (ofLink docsBase resource link (linkPath resource entry.2)).result = .ok endpoint

/-- A written entry, the link that is read from it and its endpoint stand at one place of three
lists. -/
theorem forall₂_ofEntry {docsBase : Option String} {resource : String} {value : Json}
    {links : List Link} {endpoints : List Endpoint} (distinct : value.DistinctNames)
    (read : Link.listOfJson value = .ok links)
    (listed : (ofLinks docsBase resource 0 [] links).result = .ok endpoints) :
    List.Forall₂ (OfEntry docsBase resource) (Link.publicEntries value) endpoints := by
  refine forall₂_trans ?_ (Link.forall₂_publicEntries distinct read) (forall₂_of_ofLinks listed)
  rintro ⟨entry, i⟩ ⟨link, _⟩ endpoint ⟨isRead, rfl⟩ made
  exact ⟨link, isRead, made⟩

end Endpoint

/-! ## Resources of definitions -/

namespace Resource

variable {docsBase : Option String} {name : String}

/-- The links of a definition that are not private, as they are written. -/
def publicEntries (definition : Json) : List (Json × Nat) :=
  ((definition.member? "links").map Link.publicEntries).getD []

/-- A definition becomes a resource if one of its links is not private, with one endpoint for each
of these. -/
theorem spec_of_ofDefinition? {definition : Json} {found : Option Resource}
    (distinct : definition.DistinctNames)
    (h : (ofDefinition? docsBase name definition).result = .ok found) :
    (found = none ↔ publicEntries definition = []) ∧ ∀ resource, found = some resource →
      resource.typeName = name ∧ List.Forall₂ (Endpoint.OfEntry docsBase name)
        (publicEntries definition) resource.endpoints := by
  cases declared : definition.member? "links" with
  | none =>
      rw [ofDefinition?, declared] at h
      cases h
      rw [publicEntries, declared]
      refine ⟨⟨fun _ => rfl, fun _ => rfl⟩, ?_⟩
      rintro resource ⟨⟩
  | some value =>
      obtain ⟨links, read⟩ : ∃ links, Link.listOfJson value = .ok links := by
        rw [ofDefinition?, declared] at h
        rcases Checked.ok_of_bind h with ⟨links, read, -⟩
        exact ⟨links, ok_of_mapError read⟩
      rcases found_of_ofDefinition? h declared read with ⟨resource, built, rfl⟩
      rcases endpoints_of_ofLinks built with ⟨isNamed, listed⟩
      have each : List.Forall₂ (Endpoint.OfEntry docsBase name) (Link.publicEntries value)
          resource.endpoints :=
        Endpoint.forall₂_ofEntry (distinct.part (Json.part_of_member? declared)) read listed
      have entries : publicEntries definition = Link.publicEntries value := by
        rw [publicEntries, declared, Option.map_some, Option.getD_some]
      -- There is no resource without endpoints, and no endpoint without a public link.
      have nil_iff : resource.endpoints = [] ↔ Link.publicEntries value = [] := by
        rw [← List.length_eq_zero_iff, ← each.length_eq, List.length_eq_zero_iff]
      rw [entries, ← nil_iff]
      cases all : resource.endpoints with
      | nil =>
          refine ⟨⟨fun _ => rfl, fun _ => rfl⟩, ?_⟩
          rintro resource ⟨⟩
      | cons endpoint others =>
          have isSome := Option.some_ne_none resource
          refine ⟨iff_of_false isSome (List.cons_ne_nil endpoint others), ?_⟩
          rintro _ ⟨⟩
          exact ⟨isNamed, all ▸ each⟩

/-- The names of the resources are names of definitions, in their order. -/
theorem names_of_ofDefinitions {definitions : List (String × Json)} {resources : List Resource}
    (distinct : ∀ entry ∈ definitions, entry.2.DistinctNames)
    (h : (ofDefinitions docsBase definitions).result = .ok resources) :
    (resources.map typeName).Sublist (Entries.keys definitions) := by
  rcases forall₂_of_ofDefinitions h with ⟨found, each, rfl⟩
  clear h
  induction each with
  | nil => exact .slnil
  | cons head tail ih =>
      rename_i entry first definitions others
      rw [List.forall_mem_cons] at distinct
      have behind := ih distinct.2
      cases first with
      | none => exact behind.cons entry.1
      | some resource =>
          have named := ((spec_of_ofDefinition? distinct.1 head).2 resource rfl).1
          rw [List.flatMap_cons, Option.toList_some, List.singleton_append, List.map_cons, named]
          exact behind.cons_cons entry.1

/-- Among definitions with distinct names, the resource of a name is what its definition becomes. -/
theorem found_of_ofDefinitions {definitions : List (String × Json)} {resources : List Resource}
    {definition : Json} (names : (Entries.keys definitions).Nodup)
    (distinct : ∀ entry ∈ definitions, entry.2.DistinctNames)
    (h : (ofDefinitions docsBase definitions).result = .ok resources)
    (mem : (name, definition) ∈ definitions) :
    ∃ found, (ofDefinition? docsBase name definition).result = .ok found ∧
      ∀ resource, resource ∈ resources ∧ resource.typeName = name ↔ found = some resource := by
  rcases forall₂_of_ofDefinitions h with ⟨all, each, rfl⟩
  rcases exists_of_forall₂ each mem with ⟨found, inside, made⟩
  refine ⟨found, made, ?_⟩
  intro resource
  constructor
  · rintro ⟨isResource, isNamed⟩
    rcases List.mem_flatMap.1 isResource with ⟨other, isFound, same⟩
    cases Option.mem_toList.1 same
    rcases exists_of_forall₂ each.flip isFound with ⟨⟨otherName, otherDefinition⟩, isEntry, built⟩
    -- The names tell the definitions apart, so it is this one.
    have named := ((spec_of_ofDefinition? (distinct _ isEntry) built).2 resource rfl).1
    cases named.symm.trans isNamed
    have here := Entries.get?_of_mem names mem
    cases here.symm.trans (Entries.get?_of_mem names isEntry)
    exact Except.ok.inj (made.symm.trans built)
  · rintro rfl
    have named := ((spec_of_ofDefinition? (distinct _ mem) made).2 resource rfl).1
    exact ⟨List.mem_flatMap.2 ⟨_, inside, by simp⟩, named⟩

/-- Among definitions with distinct names, one has a resource if and only if one of its links is not
private, and the resource has one endpoint for each of these links. -/
theorem entries_of_ofDefinitions {definitions : List (String × Json)} {resources : List Resource}
    {definition : Json} (names : (Entries.keys definitions).Nodup)
    (distinct : ∀ entry ∈ definitions, entry.2.DistinctNames)
    (h : (ofDefinitions docsBase definitions).result = .ok resources)
    (mem : (name, definition) ∈ definitions) :
    (name ∈ resources.map typeName ↔ publicEntries definition ≠ []) ∧
      ∀ resource ∈ resources, resource.typeName = name →
        List.Forall₂ (Endpoint.OfEntry docsBase name) (publicEntries definition)
          resource.endpoints := by
  rcases found_of_ofDefinitions names distinct h mem with ⟨found, made, found_iff⟩
  rcases spec_of_ofDefinition? (distinct _ mem) made with ⟨none_iff, each⟩
  have isNamed : name ∈ resources.map typeName ↔ found ≠ none := by
    rw [List.mem_map, Option.ne_none_iff_exists']
    exact exists_congr found_iff
  refine ⟨isNamed.trans (not_congr none_iff), ?_⟩
  intro resource isResource same
  exact (each resource ((found_iff resource).1 ⟨isResource, same⟩)).2

end Resource

/-! ## Resources of a document -/

namespace Json

variable {docsBase : Option String} {document : Json} {resources : List Resource}

/-- The links of a definition itself that are not private, with the references in them replaced. -/
def ownEntries (document definition : Json) : List (Json × Nat) :=
  ((definition.member? "links").map fun links =>
    Link.publicEntries (Schema.expansion document links).value).getD []

theorem publicEntries_expansion {definition : Json} (plain : definition.reference? = none) :
    Resource.publicEntries (Schema.expansion document definition).value =
      document.ownEntries definition := by
  rw [Resource.publicEntries, Schema.member?_expansion plain, Option.map_map]
  rfl

/-- Where the references of a document are replaced before extraction, the resources stand in the
order of the definitions, without repetition.  A definition that is a reference with a target
becomes none, even if the target has links.  One that is no reference becomes a resource if and only
if it has links of its own that are not private, and then it has one endpoint for each of them, in
their order.  No name is repeated in a document that was read (`distinctNames_of_parse?`). -/
theorem resources_inlined {definitions : List (String × Json)} (distinct : document.DistinctNames)
    (plainRoot : document.reference? = none)
    (declared : document.member? "definitions" = some (.object definitions))
    (plain : Schema.referenceIn? definitions = none)
    (h : (document.inlined.value.resources docsBase).result = .ok resources) :
    (resources.map Resource.typeName).Sublist (Entries.keys definitions) ∧
      (resources.map Resource.typeName).Nodup ∧
      (∀ name definition reference, (name, definition) ∈ definitions →
        definition.reference? = some reference → document.target? reference ≠ none →
        name ∉ resources.map Resource.typeName) ∧
      ∀ name definition, (name, definition) ∈ definitions → definition.reference? = none →
        (name ∈ resources.map Resource.typeName ↔ document.ownEntries definition ≠ []) ∧
        ∀ resource ∈ resources, resource.typeName = name →
          List.Forall₂ (Endpoint.OfEntry docsBase name) (document.ownEntries definition)
            resource.endpoints := by
  have made := ofDefinitions_of_resources h (Schema.definitions_inlined plainRoot declared plain)
  have inside : ∀ entry ∈ definitions, Part entry.2 document := fun entry mem =>
    (Part.member mem .whole).trans (part_of_member? declared)
  have names : (Entries.keys definitions).Nodup := distinct _ (part_of_member? declared)
  have same : Entries.keys (definitions.map fun entry =>
      (entry.1, (Schema.expansion document entry.2).value)) = Entries.keys definitions :=
    List.map_map
  have each : ∀ entry ∈ definitions.map fun entry =>
      (entry.1, (Schema.expansion document entry.2).value), entry.2.DistinctNames := by
    rw [List.forall_mem_map]
    intro entry mem
    exact Schema.distinctNames_expansion distinct (inside entry mem)
  have ordered := Resource.names_of_ofDefinitions each made
  rw [same] at ordered
  have one := fun name definition (mem : (name, definition) ∈ definitions) =>
    Resource.entries_of_ofDefinitions (same ▸ names) each made (List.mem_map.2 ⟨_, mem, rfl⟩)
  refine ⟨ordered, names.sublist ordered, ?_, ?_⟩
  · intro name definition reference mem isReference hasTarget
    have none := Schema.links_expansion distinct (inside _ mem) isReference hasTarget
    rw [(one name definition mem).1, Resource.publicEntries, none]
    exact fun some => some rfl
  · intro name definition mem isPlain
    rw [← publicEntries_expansion isPlain]
    exact one name definition mem

/-! ### A document whose definitions share links -/

/-- A link that is not private. -/
def listingLink : Json :=
  .object [("method", .string "GET"), ("rel", .string "instances"), ("href", .string "/articles")]

/-- A private link, written by position. -/
def purgingLink : Json :=
  .array [.string "DELETE", .string "purge", .string "", .null, .string "/articles", .null, .null,
    .null, .null, .bool true, .null]

/-- A reference into the document. -/
def referenceTo (pointer : String) : Json :=
  .object [("$ref", .string pointer)]

/-- A definition with two links in an order of its own. -/
def memoDefinition : Json :=
  .object [("links", .array [referenceTo "#/purging", referenceTo "#/listing"])]

/-- A definition that takes all its links from elsewhere, a reference to it, a definition with a
private link only and one with both links. -/
def sharingDefinitions : List (String × Json) :=
  [("article", .object [("links", referenceTo "#/all")]),
    ("post", referenceTo "#/definitions/article"),
    ("purge", .object [("links", .array [referenceTo "#/purging"])]),
    ("memo", memoDefinition)]

/-- The document with these definitions and the links that they share. -/
def sharingDocument : Json :=
  .object [("definitions", .object sharingDefinitions),
    ("all", .array [listingLink, purgingLink]), ("listing", listingLink), ("purging", purgingLink)]

/-- The document with its references replaced. -/
def sharedDocument : Json :=
  .object [("definitions", .object
      [("article", .object [("links", .array [listingLink, purgingLink])]),
        ("post", .object []),
        ("purge", .object [("links", .array [purgingLink])]),
        ("memo", .object [("links", .array [purgingLink, listingLink])])]),
    ("all", .array [listingLink, purgingLink]), ("listing", listingLink), ("purging", purgingLink)]

theorem inlined_sharingDocument : sharingDocument.inlined.value = sharedDocument := by
  cbv

theorem ownEntries_memoDefinition :
    sharingDocument.ownEntries memoDefinition = [(listingLink, 1)] := by
  cbv

theorem distinctNames_sharingDocument : sharingDocument.DistinctNames := by
  have none : null.DistinctNames := distinctNames_plain rfl rfl
  have flag : (bool true).DistinctNames := distinctNames_plain rfl rfl
  simp [sharingDocument, sharingDefinitions, memoDefinition, listingLink, purgingLink, referenceTo,
    Entries.keys, none, flag]

theorem resources_sharedDocument :
    (sharedDocument.resources none).result.map (List.map Resource.typeName) =
      .ok ["article", "memo"] := by
  decide +kernel

/-- The reference becomes no resource, nor does the definition without other links than private
ones. -/
theorem resources_inlined_sharingDocument :
    sharingDocument.DistinctNames ∧ sharingDocument.reference? = none ∧
      sharingDocument.member? "definitions" = some (.object sharingDefinitions) ∧
      Schema.referenceIn? sharingDefinitions = none ∧
      ∃ resources, (sharingDocument.inlined.value.resources none).result = .ok resources ∧
        resources.map Resource.typeName = ["article", "memo"] ∧
        (resources.map Resource.typeName).Sublist (Entries.keys sharingDefinitions) ∧
        (resources.map Resource.typeName).Nodup ∧
        "post" ∉ resources.map Resource.typeName ∧
        ("memo" ∈ resources.map Resource.typeName ↔ [(listingLink, 1)] ≠ []) ∧
        ∀ resource ∈ resources, resource.typeName = "memo" →
          List.Forall₂ (Endpoint.OfEntry none "memo") [(listingLink, 1)] resource.endpoints := by
  rcases ok_of_map resources_sharedDocument with ⟨resources, made, names⟩
  rw [← inlined_sharingDocument] at made
  rcases resources_inlined distinctNames_sharingDocument rfl rfl rfl made with
    ⟨ordered, distinct, copies, own⟩
  have memo := own "memo" memoDefinition (by simp [sharingDefinitions]) rfl
  rw [ownEntries_memoDefinition] at memo
  have post := copies "post" (referenceTo "#/definitions/article") "#/definitions/article"
    (by simp [sharingDefinitions]) rfl nofun
  exact ⟨distinctNames_sharingDocument, rfl, rfl, rfl, resources, made, names, ordered, distinct,
    post, memo⟩

end Json

end HyperSchema
