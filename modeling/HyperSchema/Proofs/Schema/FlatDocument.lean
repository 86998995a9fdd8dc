import HyperSchema.Proofs.Schema.Flattening
import HyperSchema.Schema.Flat

/-!
# Flat documents — what flattening leaves alone

A flat document has nothing that could be moved up.  This file defines:

* `Schema.FlatRecord`, `Schema.FlatLink`, `Schema.FlatDefinition` and `Json.Flat`, the documents in
  which no record has a block and no link has an envelope;
* `Json.flattened_of_flat`: a flat document is left alone, without a warning.
-/

namespace HyperSchema

namespace Schema

variable {root : Json} {path : String}

/-! ## Flat schemas -/

/-- A schema without blocks: if it is an object schema, its properties have neither name. -/
def FlatRecord (schema : Json) : Prop :=
  ∀ members props, schema.node = .object members → properties members = some props →
    (props.contains attributesBlock || props.contains relationshipsBlock) = false

/-- A link without envelopes. -/
def FlatLink (link : Json) : Prop :=
  ∀ key ∈ envelopeKeys, ∀ schema, link.member? key = some schema → dataOfEnvelope? schema = none

/-- A definition without blocks, whose links have no envelopes. -/
structure FlatDefinition (definition : Json) : Prop where
  record : FlatRecord definition
  links : ∀ links, definition.member? "links" = some (.array links) → ∀ link ∈ links, FlatLink link

/-! ## What flattening leaves alone -/

theorem flattenMembers_of_flat {members : Entries Json} (flat : FlatRecord (.object members)) :
    flattenMembers root members path = pure members := by
  rw [flattenMembers]
  split
  · rename_i members' shape
    cases eq_object_of_node_object shape
    cases found : properties members with
    | none => exact flattenRecord_of_properties_eq_none found
    | some props => exact flattenRecord_of_no_block found (flat members props shape found)
  · rfl

theorem flattenLinkSchemas_of_flat {link : Entries Json} {names : List String}
    (flat : ∀ key ∈ names, ∀ schema, link.get? key = some schema → dataOfEnvelope? schema = none) :
    flattenLinkSchemas root path link names link = pure link := by
  induction names with
  | nil => rfl
  | cons name rest ih =>
      have others := ih fun key mem => flat key (List.mem_cons_of_mem _ mem)
      rw [flattenLinkSchemas]
      cases found : link.get? name with
      | none => exact others
      | some schema =>
          dsimp only
          rw [flattenLinkSchema, flat name List.mem_cons_self schema found, pure_bind,
            Entries.insert_eq_self found, others]

theorem flattenLink_of_flat {link : Json} (flat : FlatLink link) :
    flattenLink root link path = pure link := by
  cases link with
  | object members =>
      rw [flattenLink, flattenLinkSchemas_of_flat flat, pure_bind]
  | _ => rfl

theorem flattenLinks_of_flat {links : List Json} (flat : ∀ link ∈ links, FlatLink link) (i : Nat) :
    flattenLinks root path i links = pure links := by
  induction links generalizing i with
  | nil => rfl
  | cons link rest ih =>
      rw [flattenLinks, flattenLink_of_flat (flat link List.mem_cons_self), pure_bind,
        ih (fun other mem => flat other (List.mem_cons_of_mem _ mem)), pure_bind]

theorem flattenDefinition_of_flat {definition : Json} (flat : FlatDefinition definition) :
    flattenDefinition root definition path = pure definition := by
  cases definition with
  | object members =>
      rw [flattenDefinition, flattenMembers_of_flat flat.record, pure_bind]
      split
      · rename_i links found
        rw [flattenLinks_of_flat (flat.links links found), pure_bind, Entries.insert_eq_self found]
      · rfl
  | _ => rfl

theorem flattenDefinitions_of_flat {found : Entries Json}
    (flat : ∀ entry ∈ found, FlatDefinition entry.2) :
    flattenDefinitions root found = pure found := by
  induction found with
  | nil => rfl
  | cons entry rest ih =>
      rcases entry with ⟨name, definition⟩
      rw [flattenDefinitions, flattenDefinition_of_flat (flat _ List.mem_cons_self), pure_bind,
        ih (fun other mem => flat other (List.mem_cons_of_mem _ mem)), pure_bind]

/-- The definitions of a document are a member of it. -/
theorem members_of_definitions {document : Json} {found : Entries Json}
    (h : definitions document = .ok found) :
    ∃ members, document = .object members ∧
      Entries.get? members "definitions" = some (.object found) := by
  cases document with
  | object members =>
      rw [definitions] at h
      split at h
      · rename_i found' isMap
        cases h
        rcases Option.bind_eq_some_iff.1 isMap with ⟨value, present, shape⟩
        cases value with
        | object map =>
            cases shape
            exact ⟨members, rfl, present⟩
        | _ => cases shape
      · cases h
  | _ => cases h

end Schema

/-- A document whose definitions are flat. -/
def Json.Flat (document : Json) : Prop :=
  ∀ found, Schema.definitions document = .ok found → ∀ entry ∈ found, Schema.FlatDefinition entry.2

/-- A flat document is left alone, without a warning. -/
theorem Json.flattened_of_flat {document : Json} {found : Entries Json}
    (h : Schema.definitions document = .ok found) (flat : document.Flat) :
    document.flattened = pure document := by
  rcases Schema.members_of_definitions h with ⟨members, rfl, present⟩
  have read : Checked.ofExcept (Schema.definitions (.object members)) = pure found := by
    rw [h]
    rfl
  rw [Json.flattened, read, pure_bind, Schema.flattenDefinitions_of_flat (flat found h), pure_bind]
  -- The definitions are stored where they stood.
  show pure (Json.object (Entries.insert members "definitions" (.object found))) = _
  rw [Entries.insert_eq_self present]

end HyperSchema
