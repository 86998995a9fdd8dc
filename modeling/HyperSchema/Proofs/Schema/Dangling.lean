import HyperSchema.Proofs.Json.Below
import HyperSchema.Proofs.Schema.Mentions

/-!
# Dangling — the references that flattening leaves without a target

Flattening replaces parts of a document and leaves the text of every reference as it is, so that a
reference into such a part may lead nowhere afterwards.  This file defines:

* `Schema.Dangling`, the references that are `#` and a pointer to nothing;
* `Schema.Replaces`, the places of a document at which flattening puts something else;
* `Schema.at?_of_replaces` and `Schema.isSome_at?_of_free`, what a pointer finds in a flat document
  if it leads into such a place and if it does not;
* `Schema.Displaced`, the references into such a place that what is there now has no target for;
* `Json.dangling_flattened_iff`: where no reference of a document is dangling, those of the flat
  document that are dangling are displaced or were no references before;
* `Json.subtitleDocument`, a document in which a reference is displaced.
-/

namespace HyperSchema.Schema

open Json (at?_append)

variable {root document out definition made link : Json} {path reference : String}

/-! ## References that lead nowhere -/

/-- The segments of the pointer in a local reference. -/
def segmentsOf? (reference : String) : Option (List String) :=
  (localPointer? reference).bind fun pointer => Json.Pointer.segments? pointer.toList

/-- A reference is `#` and a pointer to nothing. -/
def Dangling (root : Json) (reference : String) : Prop :=
  ∃ segments, segmentsOf? reference = some segments ∧ root.at? segments = none

instance (root : Json) (reference : String) : Decidable (Dangling root reference) :=
  decidable_of_iff ((segmentsOf? reference).any fun segments => (root.at? segments).isNone) (by
    simp [Dangling, Option.any_eq_true])

/-! ## Places that are replaced -/

/-- What takes the place of an envelope under a key of a link. -/
def ReplacesInLink (root : Json) (path : String) (link : Json) (key : String) (made : Json) :
    Prop :=
  ∃ schema data, key ∈ envelopeKeys ∧ link.member? key = some schema ∧ IsEnvelope schema data ∧
    (mapObjects (flattenRecord root) data (propertyPath (path ++ "/" ++ key) "data")).result =
      .ok made

/-- What takes the place of a part of a definition: of three members of a record, and of the
envelopes in its links.  A member that is gone is replaced by nothing. -/
inductive ReplacesInDefinition (root : Json) (path : String) (definition : Json) :
    List String → Option Json → Prop where
  | member {members flat : Entries Json} {key : String} :
      definition = .object members → HasBlock definition →
        (flattenRecord root members path).result = .ok flat →
        key ∈ ["properties", "required", "additionalProperties"] →
        ReplacesInDefinition root path definition [key] (flat.get? key)
  | envelope {links : List Json} {link made : Json} {segment key : String} {i : Nat} :
      definition.member? "links" = some (.array links) → Json.Pointer.index? segment = some i →
        links[i]? = some link →
        ReplacesInLink root (path ++ "/links/" ++ toString i) link key made →
        ReplacesInDefinition root path definition ["links", segment, key] (some made)

/-- What takes the place of a part of a document. -/
def Replaces (document : Json) (place : List String) (made : Option Json) : Prop :=
  ∃ name definition inner, document.at? ["definitions", name] = some definition ∧
    place = "definitions" :: name :: inner ∧
    ReplacesInDefinition document (definitionPath name) definition inner made

/-- A pointer leads into a place that is replaced. -/
def Enters (document : Json) (segments : List String) : Prop :=
  ∃ place rest made, segments = place ++ rest ∧ Replaces document place made

/-- A reference leads into a place that is replaced, and what is there now has no target for it. -/
def Displaced (document : Json) (reference : String) : Prop :=
  ∃ place rest made, segmentsOf? reference = some (place ++ rest) ∧ Replaces document place made ∧
    (made.bind fun value => value.at? rest) = none

/-! ## Links -/

theorem child?_of_member? {value inner : Json} {key : String} (h : value.member? key = some inner) :
    value.child? key = some inner := by
  cases value with
  | object members => exact h
  | _ => cases h

theorem member?_of_replacesInLink {key : String} {value : Json}
    (frame : LinkFrame root path link made) (h : ReplacesInLink root path link key value) :
    made.member? key = some value := by
  rcases h with ⟨schema, data, isKey, present, envelope, flattened⟩
  cases link with
  | object members =>
      rcases frame with ⟨flat, rfl, -, schemas⟩
      rcases schemas key isKey schema present with ⟨flatSchema, present', frame⟩
      cases (frame.envelope data envelope).symm.trans flattened
      exact present'
  | _ => cases present

/-- What is under other keys of a link stays. -/
theorem child?_of_linkFrame {key : String} (frame : LinkFrame root path link made)
    (free : ∀ value, ¬ ReplacesInLink root path link key value) :
    made.child? key = link.child? key := by
  cases link with
  | object members =>
      rcases frame with ⟨flat, rfl, same, schemas⟩
      -- Only under three keys can there be anything else, and there only for an envelope.
      by_cases isKey : key ∈ envelopeKeys
      · cases present : Entries.get? members key with
        | none =>
            have absent : flat.get? key = none := by
              simpa [present] using same.isSome_get? key
            exact absent.trans present.symm
        | some schema =>
            rcases schemas key isKey schema present with ⟨flatSchema, present', frame⟩
            have kept : flatSchema = schema := frame.other fun data envelope =>
              free flatSchema ⟨schema, data, isKey, present, envelope, frame.envelope data envelope⟩
            exact present'.trans (kept ▸ present.symm)
      · exact same.get?_eq isKey
  | _ => rw [frame]

/-! ## Definitions -/

/-- A link of a definition and what it becomes stand at the same position. -/
theorem linkFrame_at {links flatLinks : List Json}
    (framed : List.Forall₂ (fun entry made =>
      LinkFrame root (path ++ "/links/" ++ toString entry.2) entry.1 made) links.zipIdx flatLinks)
    (i : Nat) :
    links[i]? = none ∧ flatLinks[i]? = none ∨ ∃ link made, links[i]? = some link ∧
      flatLinks[i]? = some made ∧ LinkFrame root (path ++ "/links/" ++ toString i) link made := by
  cases at_ : links[i]? with
  | none =>
      have long := framed.length_eq
      rw [List.length_zipIdx] at long
      exact .inl ⟨rfl, List.getElem?_eq_none (long ▸ List.getElem?_eq_none_iff.1 at_)⟩
  | some link =>
      have atIndex : links.zipIdx[i]? = some (link, i) := by
        simp [List.getElem?_zipIdx, at_]
      rcases getElem?_of_forall₂ framed.flip atIndex with ⟨made, at_', frame⟩
      exact .inr ⟨link, made, rfl, at_', frame⟩

theorem at?_of_replacesInDefinition {place : List String} {value : Option Json}
    (frame : DefinitionFrame root path definition made)
    (h : ReplacesInDefinition root path definition place value) : made.at? place = value := by
  cases h with
  | member isObject isRecord flattened isKey =>
      subst isObject
      rcases frame with ⟨flat, rfl, -, record, -, -⟩
      rcases record isRecord with ⟨record, front, back, flattened', same, -, -, -⟩
      cases flattened'.symm.trans flattened
      have other : ∀ key ∈ ["properties", "required", "additionalProperties"], key ∉ ["links"] := by
        decide
      have kept := same.get?_eq (other _ isKey)
      simp [Json.at?, Json.child?, kept]
  | @envelope links link made' segment key i declared index at_ inLink =>
      cases definition with
      | object members =>
          rcases frame with ⟨flat, rfl, -, -, framed, -⟩
          rcases framed links declared with ⟨flatLinks, declared', framed⟩
          rcases linkFrame_at framed i with ⟨none, -⟩ | ⟨link', made'', at_', at_'', frame⟩
          · cases none.symm.trans at_
          · cases at_'.symm.trans at_
            have present := child?_of_member? (member?_of_replacesInLink frame inLink)
            simp [Json.at?, Json.child?_object, Json.child?_array, declared', index, at_'', present]
      | _ => cases declared

/-- Where no envelope is replaced on the way, a pointer into links still leads somewhere. -/
theorem isSome_at?_of_framedLinks {links flatLinks : List Json} {segments : List String}
    (framed : List.Forall₂ (fun entry made =>
      LinkFrame root (path ++ "/links/" ++ toString entry.2) entry.1 made) links.zipIdx flatLinks)
    (free : ∀ segment key rest i link value, segments = segment :: key :: rest →
      Json.Pointer.index? segment = some i → links[i]? = some link →
      ¬ ReplacesInLink root (path ++ "/links/" ++ toString i) link key value) :
    ((Json.array flatLinks).at? segments).isSome = ((Json.array links).at? segments).isSome := by
  cases segments with
  | nil => rfl
  | cons segment rest =>
      rw [Json.at?, Json.at?, Json.child?_array, Json.child?_array]
      cases index : Json.Pointer.index? segment with
      | none => rfl
      | some i =>
          rcases linkFrame_at framed i with ⟨none, none'⟩ | ⟨link, made, at_, at_', frame⟩
          · rw [Option.bind_some, Option.bind_some, none, none']
          · rw [Option.bind_some, Option.bind_some, at_, at_', Option.bind_some, Option.bind_some]
            cases rest with
            | nil => rfl
            | cons key rest =>
                rw [Json.at?, Json.at?, child?_of_linkFrame frame fun value =>
                  free segment key rest i link value rfl index at_]

/-- Where no place of a definition is replaced on the way, a pointer still leads somewhere. -/
theorem isSome_at?_of_definitionFrame {segments : List String}
    (frame : DefinitionFrame root path definition made)
    (free : ∀ place rest value, segments = place ++ rest →
      ¬ ReplacesInDefinition root path definition place value) :
    (made.at? segments).isSome = (definition.at? segments).isSome := by
  cases definition with
  | object members =>
      rcases frame with ⟨flat, rfl, plain, record, framed, unframed⟩
      cases segments with
      | nil => rfl
      | cons key rest =>
          -- What stands under the same key is the same value, the links apart.
          have same (kept : flat.get? key = Entries.get? members key) :
              ((Json.object flat).at? (key :: rest)).isSome =
                ((Json.object members).at? (key :: rest)).isSome := by
            rw [Json.at?, Json.at?, Json.child?_object, Json.child?_object, kept]
          by_cases isLinks : key = "links"
          · subst isLinks
            by_cases declared : ∃ links, Entries.get? members "links" = some (.array links)
            · rcases declared with ⟨links, declared⟩
              rcases framed links declared with ⟨flatLinks, declared', framed⟩
              rw [Json.at?, Json.at?, Json.child?_object, Json.child?_object, declared, declared',
                Option.bind_some, Option.bind_some]
              refine isSome_at?_of_framedLinks framed ?_
              rintro segment key rest' i link value rfl index at_ inLink
              exact free ["links", segment, key] rest' (some value) rfl
                (.envelope declared index at_ inLink)
            · exact same (unframed fun links present => declared ⟨links, present⟩)
          · -- Beside the links, a record differs in the three members that are replaced.
            have other : key ∉ ["links"] := by simpa using isLinks
            by_cases isRecord : HasBlock (.object members)
            · rcases record isRecord with ⟨flat', front, back, flattened, sameFlat, -, -, -⟩
              refine same ((sameFlat.get?_eq other).trans (get?_of_flattenRecord flattened ?_))
              exact fun isKey => free [key] rest _ rfl (.member rfl isRecord flattened isKey)
            · exact same ((plain isRecord).get?_eq other)
  | _ => rw [frame]

/-! ## Documents -/

/-- A definition and what it becomes stand under the same name. -/
theorem definitionFrame_at {found flat : Entries Json}
    (each : List.Forall₂ (fun entry made => made.1 = entry.1 ∧
      DefinitionFrame document (definitionPath entry.1) entry.2 made.2) found flat)
    (name : String) :
    found.get? name = none ∧ flat.get? name = none ∨ ∃ definition made,
      found.get? name = some definition ∧ flat.get? name = some made ∧
        DefinitionFrame document (definitionPath name) definition made := by
  induction each with
  | nil => exact .inl ⟨rfl, rfl⟩
  | @cons entry made _ _ head _ ih =>
      rcases entry with ⟨first, definition⟩
      rcases made with ⟨first', made⟩
      rcases head with ⟨rfl, frame⟩
      -- The names are the same in the same order, so the first entry found is at the same place.
      rw [Entries.get?_cons, Entries.get?_cons]
      split
      · rename_i isName
        cases isName
        exact .inr ⟨definition, made, rfl, rfl, frame⟩
      · exact ih

theorem at?_of_replaces {place : List String} {value : Option Json}
    (frame : Json.DocumentFrame document out) (h : Replaces document place value) :
    out.at? place = value := by
  rcases frame with ⟨members, flatMembers, found, flat, rfl, rfl, -, present, present', each⟩
  rcases h with ⟨name, definition, inner, at_, rfl, inDefinition⟩
  have isDefinition : found.get? name = some definition := by
    simpa [Json.at?, present] using at_
  rcases definitionFrame_at each name with ⟨none, -⟩ | ⟨definition', made, found', made', frame⟩
  · cases none.symm.trans isDefinition
  · cases found'.symm.trans isDefinition
    rw [Json.at?, Json.child?_object, present', Option.bind_some, Json.at?, Json.child?_object,
      made', Option.bind_some]
    exact at?_of_replacesInDefinition frame inDefinition

/-- A pointer that enters no place that is replaced leads somewhere in the flat document if it does
in its source. -/
theorem isSome_at?_of_free {segments : List String} (frame : Json.DocumentFrame document out)
    (free : ¬ Enters document segments) :
    (out.at? segments).isSome = (document.at? segments).isSome := by
  rcases frame with ⟨members, flatMembers, found, flat, rfl, rfl, same, present, present', each⟩
  cases segments with
  | nil => rfl
  | cons key rest =>
      rw [Json.at?, Json.at?, Json.child?_object, Json.child?_object]
      by_cases isDefinitions : key = "definitions"
      · subst isDefinitions
        rw [present, present', Option.bind_some, Option.bind_some]
        cases rest with
        | nil => rfl
        | cons name inner =>
            rw [Json.at?, Json.at?, Json.child?_object, Json.child?_object]
            rcases definitionFrame_at each name with
              ⟨none, none'⟩ | ⟨definition, made, at_, at_', frame⟩
            · rw [none, none']
            · rw [at_, at_', Option.bind_some, Option.bind_some]
              refine isSome_at?_of_definitionFrame frame ?_
              intro place rest value same inDefinition
              refine free ⟨"definitions" :: name :: place, rest, value, by rw [same]; rfl, name,
                definition, place, ?_, rfl, inDefinition⟩
              simp [Json.at?, present, at_]
      · rw [same.get?_eq (by simpa using isDefinitions)]

/-- A reference into a block of a record is displaced, unless a property of the flat record has the
name of the block. -/
theorem displaced_of_block {members props : Entries Json} {name block : String}
    {rest : List String} (frame : Json.DocumentFrame document out)
    (at_ : document.at? ["definitions", name] = some (.object members))
    (shape : (Json.object members).node = .object members)
    (declared : properties members = some props)
    (isBlock : block ∈ [attributesBlock, relationshipsBlock]) (present : block ∈ props.keys)
    (noClash : block ∉ flatNames document props)
    (read : segmentsOf? reference = some ("definitions" :: name :: "properties" :: block :: rest)) :
    Displaced document reference := by
  have isRecord : HasBlock (.object members) := by
    refine ⟨members, props, shape, declared, ?_⟩
    rcases List.mem_pair.1 isBlock with rfl | rfl
    · exact .inl present
    · exact .inr present
  rcases frame with ⟨all, flatAll, found, flat, rfl, rfl, -, present, -, each⟩
  have isDefinition : found.get? name = some (.object members) := by
    simpa [Json.at?, present] using at_
  rcases definitionFrame_at each name with ⟨none, -⟩ | ⟨definition, made, found', -, frame⟩
  · cases none.symm.trans isDefinition
  · cases found'.symm.trans isDefinition
    rcases frame with ⟨flatDefinition, -, -, record, -, -⟩
    rcases record isRecord with ⟨flatMembers, front, back, flattened, -⟩
    rcases properties_of_flattenRecord flattened declared with ⟨flatProps, isFlat, names⟩
    refine ⟨["definitions", name, "properties"], block :: rest, _, read,
      ⟨name, _, ["properties"], at_, rfl, .member rfl isRecord flattened (by simp)⟩, ?_⟩
    -- The block itself is gone, unless a field of the record has its name.
    have gone : flatProps.get? block = none := by
      cases kept : flatProps.get? block with
      | none => rfl
      | some schema => exact absurd ((names block).1 (Entries.mem_keys_of_get? kept)) noClash
    rw [get?_of_properties isFlat, Option.bind_some, Json.at?, Json.child?_object, gone]
    rfl

end HyperSchema.Schema

namespace HyperSchema.Json

open Schema

/-- If every local reference of a document has a target, a reference of the flat document has none
if and only if it is displaced, or is a text without a target that was no reference before. -/
theorem dangling_flattened_iff {document out : Json} {reference : String}
    (h : document.flattened.result = .ok out)
    (resolved : ∀ reference ∈ document.references, ¬ Dangling document reference)
    (mem : reference ∈ out.references) :
    Dangling out reference ↔ Displaced document reference ∨
      (Unwrapped document reference ∧ Dangling document reference ∧
        ∀ segments, segmentsOf? reference = some segments → ¬ Enters document segments) := by
  have frame := flattened_frame h
  constructor
  · rintro ⟨segments, read, nowhere⟩
    -- Outside the places that are replaced, a target can be missing only if it was missing before.
    by_cases enters : Enters document segments
    · rcases enters with ⟨place, rest, made, rfl, replaced⟩
      rw [at?_append, at?_of_replaces frame replaced] at nowhere
      exact .inl ⟨place, rest, made, read, replaced, nowhere⟩
    · have nowhere' : document.at? segments = none := by
        simpa [nowhere] using (isSome_at?_of_free frame enters).symm
      have dangling : Dangling document reference := ⟨segments, read, nowhere'⟩
      rcases mem_references_of_flattened h mem with known | unwrapped
      · exact (resolved reference known dangling).elim
      · refine .inr ⟨unwrapped, dangling, fun segments' read' => ?_⟩
        cases read.symm.trans read'
        exact enters
  · rintro (⟨place, rest, made, read, replaced, nowhere⟩ | ⟨-, ⟨segments, read, nowhere⟩, free⟩)
    · refine ⟨place ++ rest, read, ?_⟩
      rw [at?_append, at?_of_replaces frame replaced, nowhere]
    · refine ⟨segments, read, ?_⟩
      simpa [nowhere] using isSome_at?_of_free frame (free segments read)

/-! ## A document in which a reference is displaced -/

/-- The place of the schema of a title. -/
def titleReference : String :=
  "#/definitions/article/properties/attributes/properties/title"

/-- The attributes of an article, of which one refers to another. -/
def articleFields : Entries Json :=
  [("title", .object [("type", .string "string")]),
    ("subtitle", .object [("$ref", .string titleReference)])]

/-- An article, with its attributes in a block. -/
def articleMembers : Entries Json :=
  [("properties", .object [("attributes", .object [("properties", .object articleFields)])])]

/-- A document whose only reference has a target in a block. -/
def subtitleDocument : Json :=
  .object [("definitions", .object [("article", .object articleMembers)])]

/-- The flat form of this document. -/
def flatSubtitleDocument : Json :=
  .object [("definitions", .object [("article", .object [("properties", .object articleFields),
    ("additionalProperties", .bool false)])])]

theorem dangling_flattened_subtitleDocument :
    subtitleDocument.flattened.result = .ok flatSubtitleDocument ∧
      (∀ reference ∈ subtitleDocument.references, ¬ Dangling subtitleDocument reference) ∧
      titleReference ∈ flatSubtitleDocument.references ∧
      Dangling flatSubtitleDocument titleReference := by
  have flattened : subtitleDocument.flattened.result = .ok flatSubtitleDocument := by
    decide +kernel
  have resolved : ∀ reference ∈ subtitleDocument.references,
      ¬ Dangling subtitleDocument reference := by
    decide +kernel
  have mem : titleReference ∈ flatSubtitleDocument.references := by decide
  have shape : (Json.object articleMembers).node = .object articleMembers := rfl
  have read : segmentsOf? titleReference =
      some ["definitions", "article", "properties", "attributes", "properties", "title"] := by
    decide +kernel
  have displaced : Displaced subtitleDocument titleReference :=
    displaced_of_block (flattened_frame flattened) rfl shape rfl (by decide) (by decide)
      (by decide +kernel) read
  exact ⟨flattened, resolved, mem,
    (dangling_flattened_iff flattened resolved mem).2 (.inl displaced)⟩

end HyperSchema.Json
