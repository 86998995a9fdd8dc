import HyperSchema.Proofs.Json.Equality
import HyperSchema.Proofs.Schema.Levels

/-!
# Frame — what flattening does not touch

A flat document differs from its source in the records and the envelopes only.  This file defines:

* `Entries.SameExcept`, maps that differ only in the values under some names;
* `Schema.IsEnvelope`, the schemas that give way to their data, and `Schema.HasBlock`, the
  definitions that are records;
* `Schema.SchemaFrame`, `Schema.LinkFrame` and `Schema.DefinitionFrame`, what may be different at
  each level of a document;
* `Json.DocumentFrame` and `Json.flattened_frame`: a flat document differs from its source in
  nothing else.
-/

namespace HyperSchema

/-! ## Maps -/

namespace Entries

/-- The same names in the same order, and the same values except under some names. -/
def SameExcept (names : List String) (before after : Entries Json) : Prop :=
  List.Forall₂ (fun entry made => made.1 = entry.1 ∧ (entry.1 ∉ names → made.2 = entry.2)) before
    after

namespace SameExcept

variable {names others : List String} {first second third : Entries Json} {key : String}
  {value : Json}

theorem refl (names : List String) (entries : Entries Json) : SameExcept names entries entries :=
  List.forall₂_same.2 fun _ _ => ⟨rfl, fun _ => rfl⟩

theorem mono (h : SameExcept names first second) (more : names ⊆ others) :
    SameExcept others first second :=
  h.imp fun _ _ same => ⟨same.1, fun other => same.2 fun mem => other (more mem)⟩

theorem trans (h : SameExcept names first second) (h' : SameExcept names second third) :
    SameExcept names first third := by
  induction h generalizing third with
  | nil => exact h'
  | cons head _ ih =>
      cases h' with
      | cons head' tail' =>
          refine .cons ⟨head'.1.trans head.1, fun other => ?_⟩ (ih tail')
          exact (head'.2 (head.1 ▸ other)).trans (head.2 other)

theorem keys_eq (h : SameExcept names first second) : second.keys = first.keys := by
  induction h with
  | nil => rfl
  | cons head _ ih =>
      rw [keys, List.map_cons, head.1]
      exact congrArg _ ih

theorem get?_eq (h : SameExcept names first second) (other : key ∉ names) :
    second.get? key = first.get? key := by
  induction h with
  | nil => rfl
  | @cons entry made _ _ head _ ih =>
      rcases entry with ⟨name, before⟩
      rcases made with ⟨name', after⟩
      rcases head with ⟨rfl, same⟩
      rw [get?_cons, get?_cons, ih]
      split
      · rename_i isKey
        exact congrArg some (same (isKey ▸ other))
      · rfl

theorem isSome_get? (h : SameExcept names first second) (key : String) :
    (second.get? key).isSome = (first.get? key).isSome := by
  have known : second.contains key = true ↔ first.contains key = true := by
    rw [contains_iff, contains_iff, h.keys_eq]
  exact Bool.eq_iff_iff.2 known

/-- What is stored under a known name stays in its place. -/
theorem insert (mem : key ∈ names) (known : key ∈ first.keys) :
    SameExcept names first (first.insert key value) := by
  induction first with
  | nil => cases known
  | cons entry rest ih =>
      rcases entry with ⟨name, old⟩
      rw [Entries.insert]
      split
      · rename_i same
        exact .cons ⟨rfl, fun other => (other (same ▸ mem)).elim⟩ (refl names rest)
      · rename_i different
        refine .cons ⟨rfl, fun _ => rfl⟩ (ih ?_)
        exact (List.mem_cons.1 known).resolve_left (Ne.symm different)

end SameExcept

theorem mem_keys_of_get? {entries : Entries Json} {key : String} {value : Json}
    (h : entries.get? key = some value) : key ∈ entries.keys :=
  List.mem_map_of_mem (mem_of_get? h)

/-- A known name is stored in the part that has it. -/
theorem insert_append {front back : Entries Json} {key : String} {value : Json}
    (known : key ∈ front.keys) :
    (front ++ back).insert key value = front.insert key value ++ back := by
  induction front with
  | nil => cases known
  | cons entry rest ih =>
      rcases entry with ⟨name, old⟩
      rw [List.cons_append, Entries.insert, Entries.insert]
      split
      · rfl
      · rename_i different
        rw [ih ((List.mem_cons.1 known).resolve_left (Ne.symm different)), List.cons_append]

end Entries

namespace Schema

open Entries (SameExcept)

variable {root schema made data : Json} {members props out : Entries Json} {path : String}

/-! ## Links -/

/-- An envelope: an object schema with the property `data` and no properties but the companions. -/
def IsEnvelope (schema data : Json) : Prop :=
  ∃ members props, schema.node = .object members ∧ properties members = some props ∧
    props.get? "data" = some data ∧ ∀ name ∈ props.keys, name = "data" ∨ name ∈ envelopeCompanions

theorem envelopeData?_eq_some_iff :
    envelopeData? props = some data ↔
      props.get? "data" = some data ∧
        ∀ name ∈ props.keys, name = "data" ∨ name ∈ envelopeCompanions := by
  rw [envelopeData?_eq]
  split
  · rename_i companions
    exact (and_iff_left companions).symm
  · rename_i others
    exact iff_of_false nofun fun both => others both.2

theorem dataOfEnvelope?_eq_some_iff :
    dataOfEnvelope? schema = some data ↔ IsEnvelope schema data := by
  constructor
  · intro h
    rw [dataOfEnvelope?] at h
    split at h
    · rename_i members shape
      rcases Option.bind_eq_some_iff.1 h with ⟨props, declared, envelope⟩
      exact ⟨members, props, shape, declared, envelopeData?_eq_some_iff.1 envelope⟩
    · cases h
  · rintro ⟨members, props, shape, declared, envelope⟩
    rw [dataOfEnvelope?_of_node_object shape, declared]
    exact envelopeData?_eq_some_iff.2 envelope

/-- An envelope becomes its data with flat records, any other schema stays. -/
structure SchemaFrame (root : Json) (path : String) (schema made : Json) : Prop where
  envelope : ∀ data, IsEnvelope schema data →
    (mapObjects (flattenRecord root) data (propertyPath path "data")).result = .ok made
  other : (∀ data, ¬ IsEnvelope schema data) → made = schema

/-- A link keeps its members and their order; at most the schemas of the request, of the response
and of the job are different, and they are framed.  What is no object stays. -/
def LinkFrame (root : Json) (path : String) (link made : Json) : Prop :=
  match link with
  | .object members => ∃ flat : Entries Json, made = .object flat ∧
      SameExcept ["schema", "targetSchema", "jobSchema"] members flat ∧
      ∀ key ∈ ["schema", "targetSchema", "jobSchema"], ∀ schema,
        Entries.get? members key = some schema → ∃ flatSchema, flat.get? key = some flatSchema ∧
          SchemaFrame root (path ++ "/" ++ key) schema flatSchema
  | _ => made = link

theorem schemaFrame_of_flattenLinkSchema
    (h : (flattenLinkSchema root schema path).result = .ok made) :
    SchemaFrame root path schema made := by
  rw [flattenLinkSchema] at h
  constructor
  · intro data envelope
    rw [dataOfEnvelope?_eq_some_iff.2 envelope] at h
    exact h
  · intro none
    split at h
    · rename_i data envelope
      exact (none data (dataOfEnvelope?_eq_some_iff.1 envelope)).elim
    · cases h
      rfl

/-- Storing schemas under names that a link has leaves the other members alone. -/
theorem sameExcept_of_flattenLinkSchemas {link flat : Entries Json} {names : List String}
    (h : (flattenLinkSchemas root path link names flat).result = .ok out)
    (known : flat.keys = link.keys) (mem : names ⊆ envelopeKeys) :
    SameExcept envelopeKeys flat out := by
  induction names generalizing flat with
  | nil =>
      cases h
      exact .refl _ _
  | cons name rest ih =>
      rw [flattenLinkSchemas] at h
      rw [List.cons_subset] at mem
      cases present : link.get? name with
      | none =>
          rw [present] at h
          exact ih h known mem.2
      | some schema =>
          rw [present] at h
          rcases Checked.ok_of_bind h with ⟨made, -, h⟩
          -- The name is one of the link, so the schema is stored in its place.
          have stored : SameExcept envelopeKeys flat (flat.insert name made) :=
            .insert mem.1 (known ▸ Entries.mem_keys_of_get? present)
          exact stored.trans (ih h (stored.keys_eq.trans known) mem.2)

theorem linkFrame_of_flattenLink {link : Json}
    (h : (flattenLink root link path).result = .ok made) : LinkFrame root path link made := by
  cases link with
  | object members =>
      rw [flattenLink] at h
      rcases Checked.ok_of_bind h with ⟨flat, flattened, h⟩
      cases h
      refine ⟨flat, rfl, sameExcept_of_flattenLinkSchemas flattened rfl (List.Subset.refl _), ?_⟩
      intro key isKey schema present
      rcases (get?_of_flattenLinkSchemas flattened key).2 schema isKey present with
        ⟨made, flattened', present'⟩
      exact ⟨made, present', schemaFrame_of_flattenLinkSchema flattened'⟩
  | _ =>
      cases h
      rfl

/-! ## Definitions -/

/-- A definition is a record: an object schema with a block among its properties. -/
def HasBlock (definition : Json) : Prop :=
  ∃ members props, definition.node = .object members ∧ properties members = some props ∧
    ("attributes" ∈ props.keys ∨ "relationships" ∈ props.keys)

/-- A record keeps its members, `properties` in its place and `required` and `additionalProperties`
at the end; any other definition stays.  The links, if they are an array, are framed one by one. -/
def DefinitionFrame (root : Json) (path : String) (definition made : Json) : Prop :=
  match definition with
  | .object members => ∃ flat : Entries Json, made = .object flat ∧
      (¬ HasBlock definition → SameExcept ["links"] members flat) ∧
      (HasBlock definition → ∃ record front back,
        (flattenRecord root members path).result = .ok record ∧
        SameExcept ["links"] record flat ∧ flat = front ++ back ∧
        SameExcept ["links", "properties"]
          (members.filter fun entry =>
            entry.1 != "required" && entry.1 != "additionalProperties") front ∧
        (Entries.keys back = ["additionalProperties"] ∨
          Entries.keys back = ["required", "additionalProperties"])) ∧
      (∀ links, Entries.get? members "links" = some (.array links) → ∃ flatLinks,
        flat.get? "links" = some (.array flatLinks) ∧
        List.Forall₂ (fun entry made =>
          LinkFrame root (path ++ "/links/" ++ toString entry.2) entry.1 made)
          links.zipIdx flatLinks) ∧
      ((∀ links, Entries.get? members "links" ≠ some (.array links)) →
        flat.get? "links" = Entries.get? members "links")
  | _ => made = definition

/-- A definition that is no record has nothing but its links flattened. -/
theorem flattenMembers_of_not_hasBlock (h : ¬ HasBlock (.object members)) :
    flattenMembers root members path = pure members := by
  apply flattenMembers_of_flat
  intro members' props shape declared
  rw [← Bool.not_eq_true]
  intro hasBlock
  refine h ⟨members', props, shape, declared, ?_⟩
  rcases Bool.or_eq_true_iff.1 hasBlock with present | present
  · exact .inl (Entries.contains_iff.1 present)
  · exact .inr (Entries.contains_iff.1 present)

/-- A record is made flat; two of its members move to the end. -/
theorem flattenMembers_of_hasBlock (h : HasBlock (.object members))
    (flattened : (flattenMembers root members path).result = .ok out) :
    (flattenRecord root members path).result = .ok out ∧ ∃ front back, out = front ++ back ∧
      SameExcept ["properties"]
        (members.filter fun entry => entry.1 != "required" && entry.1 != "additionalProperties")
        front ∧
      (Entries.keys back = ["additionalProperties"] ∨
        Entries.keys back = ["required", "additionalProperties"]) := by
  rcases h with ⟨members', props, shape, declared, hasBlock⟩
  cases eq_object_of_node_object shape
  rw [flattenMembers, shape] at flattened
  refine ⟨flattened, ?_⟩
  have present : (props.contains attributesBlock || props.contains relationshipsBlock) = true := by
    rw [Bool.or_eq_true_iff, Entries.contains_iff, Entries.contains_iff]
    exact hasBlock
  dsimp only at flattened
  rw [flattenRecord_of_block declared present] at flattened
  rcases blocks_of_flattenBlocks flattened with ⟨attributes, relationships, -, -, rfl⟩
  rw [flatMembers, List.append_assoc]
  refine ⟨_, _, rfl, ?_, ?_⟩
  · rw [SameExcept, List.forall₂_map_right_iff]
    refine List.forall₂_same.2 fun entry _ => ⟨rfl, fun other => if_neg ?_⟩
    simpa using other
  · split
    · exact .inl rfl
    · exact .inr rfl

theorem definitionFrame_of_flattenDefinition {definition : Json}
    (h : (flattenDefinition root definition path).result = .ok made) :
    DefinitionFrame root path definition made := by
  cases definition with
  | object members =>
      rcases parts_of_flattenDefinition h with ⟨flat, flattened, links⟩
      have noRecord (none : ¬ HasBlock (.object members)) : flat = members := by
        rw [flattenMembers_of_not_hasBlock none] at flattened
        cases flattened
        rfl
      rcases links with ⟨links, flatLinks, found, framed, rfl⟩ | ⟨noLinks, rfl⟩
      · have kept : flat.get? "links" = some (.array links) :=
          (get?_of_flattenMembers flattened (by decide)).trans found
        have stored : SameExcept ["links"] flat (flat.insert "links" (.array flatLinks)) :=
          .insert (List.mem_singleton.2 rfl) (Entries.mem_keys_of_get? kept)
        refine ⟨_, rfl, ?_, ?_, ?_, fun noLinks => (noLinks links found).elim⟩
        · intro none
          rw [noRecord none] at stored ⊢
          exact stored
        · intro isRecord
          rcases flattenMembers_of_hasBlock isRecord flattened with
            ⟨record, front, back, rfl, sameFront, isBack⟩
          -- The links stand in front, so that they are stored there.
          have inFront : "links" ∈ front.keys := by
            rw [sameFront.keys_eq]
            refine List.mem_map.2 ⟨("links", .array links), ?_, rfl⟩
            exact List.mem_filter.2 ⟨Entries.mem_of_get? found, by simp⟩
          refine ⟨_, front.insert "links" (.array flatLinks), back, record, stored,
            Entries.insert_append inFront, ?_, isBack⟩
          have stored' : SameExcept ["links", "properties"] front
              (front.insert "links" (.array flatLinks)) :=
            .insert List.mem_cons_self inFront
          exact (sameFront.mono (by simp)).trans stored'
        · intro links' found'
          cases found.symm.trans found'
          refine ⟨flatLinks, by rw [Entries.get?_insert, if_pos rfl], ?_⟩
          exact (forall₂_zipIdx_of_flattenLinks framed).imp fun _ _ => linkFrame_of_flattenLink
      · refine ⟨flat, rfl, ?_, ?_, fun links found => (noLinks links found).elim,
          fun _ => get?_of_flattenMembers flattened (by decide)⟩
        · intro none
          rw [noRecord none]
          exact .refl _ _
        · intro isRecord
          rcases flattenMembers_of_hasBlock isRecord flattened with
            ⟨record, front, back, rfl, sameFront, isBack⟩
          exact ⟨_, front, back, record, .refl _ _, rfl, sameFront.mono (by simp), isBack⟩
  | _ =>
      cases h
      rfl

end Schema

/-! ## Documents -/

namespace Json

open Schema

open Entries (SameExcept)

/-- What may be different in a flat document: the definitions, each within its frame. -/
def DocumentFrame (document out : Json) : Prop :=
  ∃ members flatMembers found flat : Entries Json, document = .object members ∧
    out = .object flatMembers ∧ SameExcept ["definitions"] members flatMembers ∧
    members.get? "definitions" = some (.object found) ∧
    flatMembers.get? "definitions" = some (.object flat) ∧
    List.Forall₂ (fun entry made => made.1 = entry.1 ∧
      DefinitionFrame document (definitionPath entry.1) entry.2 made.2) found flat

/-- A flat document has the members of its source, and the same definitions by name.  Nothing is
different but the properties, the required names and the openness of records, and the envelopes in
links; the schema of a query and the definitions inside a definition are as they were. -/
theorem flattened_frame {document out : Json} (h : document.flattened.result = .ok out) :
    DocumentFrame document out := by
  rw [flattened] at h
  rcases Checked.ok_of_bind h with ⟨found, read, h⟩
  rw [Checked.result_ofExcept] at read
  rcases Checked.ok_of_bind h with ⟨flat, flattened', h⟩
  cases h
  rcases members_of_definitions read with ⟨members, rfl, present⟩
  refine ⟨members, _, found, flat, rfl, rfl, ?_, present, ?_, ?_⟩
  · exact .insert (List.mem_singleton.2 rfl) (Entries.mem_keys_of_get? present)
  · exact (Entries.get?_insert members _ _ _).trans (if_pos rfl)
  · exact (forall₂_of_flattenDefinitions flattened').imp fun _ _ both =>
      ⟨both.1, definitionFrame_of_flattenDefinition both.2⟩

/-! ## A document with definitions of all kinds -/

/-- An object schema with some properties. -/
def withProperties (properties : Entries Json) : Entries Json :=
  [("properties", .object properties)]

/-- The members of a link beside its request. -/
def searchMembers : Entries Json :=
  [("rel", .string "create"),
    ("hrefSchema", .object (withProperties [("data", .object [("type", .string "object")])]))]

/-- A record with a link and a definition of its own, an object without blocks, and a definition
that is no object. -/
def catalogue : Json :=
  .object [("title", .string "Catalogue"),
    ("definitions", .object [
      ("book", .object [("required", .array [.string "attributes"]),
        ("properties", .object [("id", .object []),
          ("attributes", .object (withProperties [("title", .object [])]))]),
        ("definitions", .object [("attributes", .object [])]),
        ("links", .array [.null, .object (searchMembers ++ [("schema", .object (withProperties
          [("data", .object (withProperties
            [("attributes", .object (withProperties [("title", .object [])]))]))]))])])]),
      ("shelf", .object (withProperties [("place", .object [])])),
      ("anything", .bool true)]),
    ("version", .number (.integer 1))]

/-- The flat form of this document. -/
def flatCatalogue : Json :=
  .object [("title", .string "Catalogue"),
    ("definitions", .object [
      ("book", .object [("properties", .object [("id", .object []), ("title", .object [])]),
        ("definitions", .object [("attributes", .object [])]),
        ("links", .array [.null, .object (searchMembers ++ [("schema", .object (withProperties
          [("title", .object [])] ++ [("additionalProperties", .bool false)]))])]),
        ("additionalProperties", .bool false)]),
      ("shelf", .object (withProperties [("place", .object [])])),
      ("anything", .bool true)]),
    ("version", .number (.integer 1))]

theorem flattened_frame_catalogue :
    catalogue.flattened.result = .ok flatCatalogue ∧ DocumentFrame catalogue flatCatalogue := by
  have flattened : catalogue.flattened.result = .ok flatCatalogue := by decide +kernel
  exact ⟨flattened, flattened_frame flattened⟩

end Json

end HyperSchema
