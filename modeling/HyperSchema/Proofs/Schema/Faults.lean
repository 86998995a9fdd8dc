import HyperSchema.Proofs.Json.Below
import HyperSchema.Proofs.Schema.Frame
import HyperSchema.Proofs.Schema.Places
import Mathlib.Data.List.Infix

/-!
# Faults — the errors of a walk and of flattening show a node of the document

An error about the shape of a node carries an address that was put together on the way to the node.
This file defines:

* `SchemaError.Shows`, the node in an error: its text, or the longest beginning that fits;
* `Schema.FaultBelow`, an error that shows a node below a value, at its address;
* `Schema.below_of_mem_stops`, the addresses of the stops of a walk;
* `Schema.error_of_mapObjects` and `Schema.error_of_gatherObjects`, the stop at which a walk fails;
* `Schema.faultBelow_of_flattenRecord` and its likes for each level of a document;
* `Json.error_of_flattened`: flattening fails at a document that is no hyperschema or with such an
  error below a definition.
-/

namespace HyperSchema

/-! ## What an error shows -/

namespace Text

theorem utf8ByteSize_ofList (text : List Char) :
    (String.ofList text).utf8ByteSize = utf8Size text := by
  induction text with
  | nil => rfl
  | cons c rest ih =>
      rw [String.ofList_cons, String.utf8ByteSize_append, String.utf8ByteSize_singleton, ih,
        utf8Size]

theorem takeBytes_prefix (limit : Nat) (text : List Char) : takeBytes limit text <+: text := by
  induction text generalizing limit with
  | nil => exact List.prefix_refl []
  | cons c rest ih =>
      rw [takeBytes]
      split
      · exact List.cons_prefix_cons.2 ⟨rfl, ih _⟩
      · exact List.nil_prefix

theorem utf8Size_takeBytes_le (limit : Nat) (text : List Char) :
    utf8Size (takeBytes limit text) ≤ limit := by
  induction text generalizing limit with
  | nil => exact Nat.zero_le limit
  | cons c rest ih =>
      rw [takeBytes]
      split
      · have := ih (limit - c.utf8Size)
        rw [utf8Size]
        omega
      · exact Nat.zero_le limit

/-- No longer beginning fits. -/
theorem prefix_takeBytes {limit : Nat} {text front : List Char} (h : front <+: text)
    (fits : utf8Size front ≤ limit) : front <+: takeBytes limit text := by
  induction text generalizing limit front with
  | nil => exact h
  | cons c rest ih =>
      cases front with
      | nil => exact List.nil_prefix
      | cons d front =>
          rcases List.cons_prefix_cons.1 h with ⟨rfl, inside⟩
          rw [utf8Size] at fits
          rw [takeBytes, if_pos (by omega)]
          exact List.cons_prefix_cons.2 ⟨rfl, ih inside (by omega)⟩

end Text

namespace SchemaError

/-- A snippet shows a node: it is the compact text of the node, or, where this has more than 120
bytes, its longest beginning of at most 120 bytes with dots behind. -/
def Shows (snippet : String) (node : Json) : Prop :=
  (node.compact.utf8ByteSize ≤ 120 ∧ snippet = node.compact) ∨
    (120 < node.compact.utf8ByteSize ∧ ∃ front : String,
      front.toList <+: node.compact.toList ∧ front.utf8ByteSize ≤ 120 ∧
      (∀ other : String, other.toList <+: node.compact.toList → other.utf8ByteSize ≤ 120 →
        other.toList <+: front.toList) ∧
      snippet = front ++ "...")

theorem shows_snippetOf (node : Json) : Shows (snippetOf node) node := by
  have size : node.compact.utf8ByteSize = Text.utf8Size node.compactChars := by
    rw [Json.compact, Text.utf8ByteSize_ofList]
  have chars : node.compact.toList = node.compactChars := String.toList_ofList
  rw [Shows, size, chars, snippetOf]
  split
  · rename_i long
    refine .inr ⟨long, String.ofList (Text.takeBytes snippetLimit node.compactChars),
      ?_, ?_, ?_, ?_⟩
    · rw [String.toList_ofList]
      exact Text.takeBytes_prefix _ _
    · rw [Text.utf8ByteSize_ofList]
      exact Text.utf8Size_takeBytes_le _ _
    · intro other isPrefix fits
      rw [String.toList_ofList]
      refine Text.prefix_takeBytes isPrefix ?_
      rwa [← Text.utf8ByteSize_ofList, String.ofList_toList]
    · rw [String.ofList_append]
  · rename_i short
    exact .inl ⟨Nat.not_lt.1 short, rfl⟩

end SchemaError

namespace Schema

open Json (Below below_member below_named below_through child?_toString isPlain_toString IsPlain)

/-- The schema at a stop. -/
def Visit.schema : Visit → Json
  | object members _ => .object members
  | stray schema _ => schema

/-- The address of a stop. -/
def Visit.path : Visit → String
  | object _ path => path
  | stray _ path => path

/-! ## Errors below a value -/

/-- An error that shows a node below a value, at its address. -/
def FaultBelow (path : String) (value : Json) (e : SchemaError) : Prop :=
  ∃ path' node, Below path value path' node ∧ e = SchemaError.shapeAt path' node

variable {root schema value value' : Json} {members props : Entries Json}
  {path path' name : String} {e : SchemaError}

theorem FaultBelow.trans (below : Below path value path' value') (h : FaultBelow path' value' e) :
    FaultBelow path value e := by
  rcases h with ⟨path'', node, inside, rfl⟩
  exact ⟨path'', node, below.trans inside, rfl⟩

theorem faultBelow_here : FaultBelow path value (SchemaError.shapeAt path value) :=
  ⟨path, value, .here, rfl⟩

/-! ## Addresses in a schema -/

theorem below_property (declared : properties members = some props)
    (present : props.get? name = some schema) (plain : IsPlain name) :
    Below path (.object members) (propertyPath path name) schema :=
  below_through (by decide) (by decide) (get?_of_properties declared) present plain

theorem below_branch {branches : List Json} {branch : Json} {i : Nat}
    (shape : schema.node = .union members branches) (at_ : branches[i]? = some branch) :
    Below path schema (branchPath path i) branch := by
  rcases eq_object_of_node_union shape with ⟨rfl, present⟩
  exact below_through (by decide) (by decide) present (child?_toString at_) (isPlain_toString i)

theorem below_single {item : Json} (shape : schema.node = .array members (.single item)) :
    Below path schema (itemsPath path) item := by
  rcases eq_object_of_node_single shape with ⟨rfl, present⟩
  exact below_named (by decide) present (by decide)

theorem below_tuple {schemas : List Json} {inner : Json} {i : Nat}
    (shape : schema.node = .array members (.tuple schemas)) (at_ : schemas[i]? = some inner) :
    Below path schema (tuplePath path i) inner := by
  rcases eq_object_of_node_tuple shape with ⟨rfl, present⟩
  exact below_through (by decide) (by decide) present (child?_toString at_) (isPlain_toString i)

theorem below_link {links : List Json} {link : Json} {i : Nat}
    (present : members.get? "links" = some (.array links)) (at_ : links[i]? = some link) :
    Below path (.object members) (path ++ "/links/" ++ toString i) link :=
  below_through (by decide) (by decide) present (child?_toString at_) (isPlain_toString i)

/-! ## Errors of a walk -/

theorem below_of_mem_children {place child : Place} (mem : child ∈ place.children) :
    Below place.path place.schema child.path child.schema := by
  unfold Place.children at mem
  split at mem
  · rename_i shape
    rcases List.mem_map.1 mem with ⟨⟨branch, i⟩, inside, rfl⟩
    exact below_branch shape (List.mem_zipIdx_iff_getElem?.1 inside)
  · rename_i shape
    cases List.mem_singleton.1 mem
    exact below_single shape
  · rename_i shape
    rcases List.mem_map.1 mem with ⟨⟨schema, i⟩, inside, rfl⟩
    exact below_tuple shape (List.mem_zipIdx_iff_getElem?.1 inside)
  · cases mem

/-- The stops of a walk stand at their addresses. -/
theorem below_of_mem_stops {place : Place} {visit : Visit} (mem : visit ∈ place.stops) :
    Below place.path place.schema visit.path visit.schema := by
  induction place using Place.induct with
  | step place ih =>
      rw [Place.stops_eq] at mem
      split at mem
      · rename_i members shape
        cases List.mem_singleton.1 mem
        rw [eq_object_of_node_object shape]
        exact .here
      · split at mem
        · cases mem
        · cases List.mem_singleton.1 mem
          exact .here
      · rcases List.mem_flatMap.1 mem with ⟨child, isChild, inside⟩
        exact (below_of_mem_children isChild).trans (ih child isChild inside)

theorem below_of_mem_visits {visit : Visit} (mem : visit ∈ visits schema path) :
    Below path schema visit.path visit.schema := by
  have stops : visit ∈ Place.stops ⟨schema, path, false⟩ := mem
  exact below_of_mem_stops stops

/-- A walk that replaces objects fails at one of its stops. -/
theorem error_of_mapObjects {f : List (String × Json) → String → Checked (List (String × Json))}
    (h : (mapObjects f schema path).result = .error e) :
    ∃ visit ∈ visits schema path, (Visit.run f visit).result = .error e := by
  revert h
  refine visits.induct
    (fun schema path => (mapObjects f schema path).result = .error e →
      ∃ visit ∈ visits schema path, (Visit.run f visit).result = .error e)
    (fun schemas path i => (mapTuple f schemas path i).result = .error e →
      ∃ visit ∈ visitsOfTuple schemas path i, (Visit.run f visit).result = .error e)
    (fun branches path i => (mapBranches f branches path i).result = .error e →
      ∃ visit ∈ visitsOfBranches branches path i, (Visit.run f visit).result = .error e)
    ?reference ?object ?union ?items ?tuple ?missing ?leaf ?noPlace ?place ?noBranch ?branch
    schema path
  case reference =>
      intro schema path target shape h
      rw [mapObjects_eq, shape] at h
      cases h
  case object =>
      intro schema path members shape h
      rw [mapObjects_eq, shape] at h
      rw [visits_eq, shape]
      exact ⟨_, List.mem_singleton.2 rfl, Checked.error_of_map h⟩
  case union =>
      intro schema path members branches shape ih h
      rw [mapObjects_eq, shape] at h
      rw [visits_eq, shape]
      exact ih (Checked.error_of_map h)
  case items =>
      intro schema path members item shape ih h
      rw [mapObjects_eq, shape] at h
      rw [visits_eq, shape]
      exact ih (Checked.error_of_map h)
  case tuple =>
      intro schema path members schemas shape ih h
      rw [mapObjects_eq, shape] at h
      rw [visits_eq, shape]
      exact ih (Checked.error_of_map h)
  case missing =>
      intro schema path members shape h
      rw [mapObjects_eq, shape] at h
      cases h
  case leaf =>
      intro schema path shape h
      rw [mapObjects_eq, shape] at h
      rw [visits_eq, shape]
      cases h
      exact ⟨_, List.mem_singleton.2 rfl, rfl⟩
  case noPlace =>
      intro path i h
      rw [mapTuple] at h
      cases h
  case place =>
      intro path i schema rest ih ihRest h
      rw [mapTuple] at h
      rw [visitsOfTuple]
      rcases Checked.error_of_bind h with failed | ⟨first, -, h⟩
      · rcases ih failed with ⟨visit, mem, stopped⟩
        exact ⟨visit, List.mem_append_left _ mem, stopped⟩
      · rcases ihRest (Checked.error_of_map h) with ⟨visit, mem, stopped⟩
        exact ⟨visit, List.mem_append_right _ mem, stopped⟩
  case noBranch =>
      intro path i h
      rw [mapBranches] at h
      cases h
  case branch =>
      intro path i branch rest ih ihRest h
      rw [mapBranches] at h
      rw [visitsOfBranches]
      split at h
      · -- A branch that is passed over cannot fail, and what is behind it can.
        rename_i isNull
        rw [pure_bind] at h
        rcases ihRest (Checked.error_of_map h) with ⟨visit, mem, stopped⟩
        exact ⟨visit, List.mem_append_right _ mem, stopped⟩
      · rename_i notNull
        rw [if_neg notNull]
        rcases Checked.error_of_bind h with failed | ⟨first, -, h⟩
        · rcases ih failed with ⟨visit, mem, stopped⟩
          exact ⟨visit, List.mem_append_left _ mem, stopped⟩
        · rcases ihRest (Checked.error_of_map h) with ⟨visit, mem, stopped⟩
          exact ⟨visit, List.mem_append_right _ mem, stopped⟩

/-- A walk that collects from objects fails at one of its stops. -/
theorem error_of_gatherObjects {α : Type} {f : List (String × Json) → String → Except SchemaError α}
    (h : gatherObjects f schema path = .error e) :
    ∃ visit ∈ visits schema path, Visit.run f visit = .error e := by
  rw [gatherObjects_eq_mapM (fun _ _ => rfl)] at h
  exact error_of_mapM h

/-! ## Errors of flattening -/

/-- A record fails at a block whose references lead nowhere. -/
theorem faultBelow_of_flattenRecord (h : (flattenRecord root members path).result = .error e) :
    FaultBelow path (.object members) e := by
  have ofBlock {props : Entries Json} {name : String} (declared : properties members = some props)
      (plain : IsPlain name) (failed : block root props path name = .error e) :
      FaultBelow path (.object members) e := by
    unfold block at failed
    split at failed
    · cases failed
    · rename_i schema present
      split at failed
      · cases failed
      · cases failed
        exact .trans (below_property declared present plain) faultBelow_here
  rw [flattenRecord] at h
  split at h
  · cases h
  · rename_i props declared
    split at h
    · rw [flattenBlocks] at h
      rcases Checked.error_of_bind h with failed | ⟨attributes, -, h⟩
      · exact ofBlock declared (by decide) failed
      -- Putting properties together gives warnings only.
      rcases Checked.error_of_bind h with failed | ⟨own, -, h⟩
      · cases failed
      rcases Checked.error_of_bind h with failed | ⟨relationships, -, h⟩
      · exact ofBlock declared (by decide) failed
      rcases Checked.error_of_bind h with failed | ⟨fields, -, h⟩
      · cases failed
      · cases h
    · cases h

/-- A stop of a walk fails below the schema where the walk started. -/
theorem faultBelow_of_visit {visit : Visit} (mem : visit ∈ visits schema path)
    (fails : FaultBelow visit.path visit.schema e) : FaultBelow path schema e :=
  .trans (below_of_mem_visits mem) fails

/-- A walk fails below its start, if its errors at objects are errors below these. -/
theorem faultBelow_of_gatherObjects {α : Type}
    {f : List (String × Json) → String → Except SchemaError α}
    (h : gatherObjects f schema path = .error e)
    (each : ∀ members path, f members path = .error e → FaultBelow path (.object members) e) :
    FaultBelow path schema e := by
  rcases error_of_gatherObjects h with ⟨visit, mem, failed⟩
  refine faultBelow_of_visit mem ?_
  -- A leaf is its own fault.
  cases visit with
  | object members path' => exact each members path' failed
  | stray schema path' =>
      cases failed
      exact faultBelow_here

theorem faultBelow_of_mapObjects
    (h : (mapObjects (flattenRecord root) schema path).result = .error e) :
    FaultBelow path schema e := by
  rcases error_of_mapObjects h with ⟨visit, mem, failed⟩
  refine faultBelow_of_visit mem ?_
  cases visit with
  | object members path' => exact faultBelow_of_flattenRecord failed
  | stray schema path' =>
      cases failed
      exact faultBelow_here

theorem faultBelow_of_flattenLinkSchema
    (h : (flattenLinkSchema root schema path).result = .error e) : FaultBelow path schema e := by
  rw [flattenLinkSchema] at h
  split at h
  · rename_i data envelope
    rcases dataOfEnvelope?_eq_some_iff.1 envelope with ⟨members, props, shape, declared, isData, -⟩
    rw [eq_object_of_node_object shape]
    exact .trans (below_property declared isData (by decide)) (faultBelow_of_mapObjects h)
  · cases h

theorem faultBelow_of_flattenLinkSchemas {link flat : Entries Json} {names : List String}
    (h : (flattenLinkSchemas root path link names flat).result = .error e)
    (plain : ∀ name ∈ names, IsPlain name) : FaultBelow path (.object link) e := by
  induction names generalizing flat with
  | nil => cases h
  | cons name rest ih =>
      have others := fun other mem => plain other (List.mem_cons_of_mem name mem)
      rw [flattenLinkSchemas] at h
      split at h
      · exact ih h others
      · rename_i schema present
        rcases Checked.error_of_bind h with failed | ⟨made, -, h⟩
        · exact .trans (below_member present (plain name List.mem_cons_self))
            (faultBelow_of_flattenLinkSchema failed)
        · exact ih h others

theorem faultBelow_of_flattenLink {link : Json}
    (h : (flattenLink root link path).result = .error e) : FaultBelow path link e := by
  cases link with
  | object members =>
      rw [flattenLink] at h
      exact faultBelow_of_flattenLinkSchemas (Checked.error_of_map h) (by decide)
  | _ => cases h

/-- One of the links fails, at its position. -/
theorem faultBelow_of_flattenLinks {links : List Json} {i : Nat}
    (h : (flattenLinks root path i links).result = .error e) :
    ∃ entry ∈ links.zipIdx i, FaultBelow (path ++ "/links/" ++ toString entry.2) entry.1 e := by
  induction links generalizing i with
  | nil => cases h
  | cons link rest ih =>
      rw [flattenLinks] at h
      rw [List.zipIdx_cons]
      rcases Checked.error_of_bind h with failed | ⟨made, -, h⟩
      · exact ⟨(link, i), List.mem_cons_self, faultBelow_of_flattenLink failed⟩
      · rcases ih (Checked.error_of_map h) with ⟨entry, mem, fault⟩
        exact ⟨entry, List.mem_cons_of_mem _ mem, fault⟩

theorem faultBelow_of_flattenDefinition {definition : Json}
    (h : (flattenDefinition root definition path).result = .error e) :
    FaultBelow path definition e := by
  cases definition with
  | object members =>
      rw [flattenDefinition] at h
      rcases Checked.error_of_bind h with failed | ⟨flat, -, h⟩
      · rw [flattenMembers] at failed
        split at failed
        · exact faultBelow_of_flattenRecord failed
        · cases failed
      · split at h
        · rename_i links present
          rcases faultBelow_of_flattenLinks (Checked.error_of_map h) with ⟨⟨link, i⟩, mem, fault⟩
          exact .trans (below_link present (List.mem_zipIdx_iff_getElem?.1 mem)) fault
        · cases h
  | _ => cases h

theorem faultBelow_of_flattenDefinitions {found : Entries Json}
    (h : (flattenDefinitions root found).result = .error e) :
    ∃ entry ∈ found, FaultBelow (definitionPath entry.1) entry.2 e := by
  induction found with
  | nil => cases h
  | cons entry rest ih =>
      rcases entry with ⟨name, definition⟩
      rw [flattenDefinitions] at h
      rcases Checked.error_of_bind h with failed | ⟨made, -, h⟩
      · exact ⟨_, List.mem_cons_self, faultBelow_of_flattenDefinition failed⟩
      · rcases ih (Checked.error_of_map h) with ⟨entry, mem, fault⟩
        exact ⟨entry, List.mem_cons_of_mem _ mem, fault⟩

end Schema

namespace Json

open Schema

/-- Flattening fails at a document that is no hyperschema or below a definition. -/
theorem error_of_flattened {document : Json} {e : SchemaError}
    (h : document.flattened.result = .error e) :
    (∃ fault, e = .faultyDocument fault) ∨
      ∃ found, (document.member? "definitions").bind members? = some found ∧
        ∃ entry ∈ found, FaultBelow (definitionPath entry.1) entry.2 e := by
  rw [flattened] at h
  rcases Checked.error_of_bind h with failed | ⟨found, read, h⟩
  · rw [Checked.result_ofExcept] at failed
    unfold definitions at failed
    split at failed
    · split at failed
      · cases failed
      · cases failed
        exact .inl ⟨_, rfl⟩
    · cases failed
      exact .inl ⟨_, rfl⟩
  · rw [Checked.result_ofExcept] at read
    refine .inr ⟨found, ?_, faultBelow_of_flattenDefinitions (Checked.error_of_map h)⟩
    unfold definitions at read
    split at read
    · split at read
      · rename_i present
        cases read
        exact present
      · cases read
    · cases read

end Json

end HyperSchema
