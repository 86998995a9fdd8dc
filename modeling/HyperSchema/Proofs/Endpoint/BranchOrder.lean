import HyperSchema.Proofs.Endpoint.Records
import HyperSchema.Proofs.Schema.Rearrangement

/-!
# Branch order — request shapes under other orders of branches

The branches of the unions in a request body may stand in any order.  This file defines:

* `Schema.LeafFirst`, a block in which a stray leaf comes before every object without properties;
* `RequestShape.SameMeaning`, shapes that differ in the order of their fields;
* `RequestShape.ofData_ok_iff`: the data of a body has a shape if it has no stray leaf, and no block
  of a record has one first;
* `RequestShape.shape_of_rearranged`: under another order of branches a shape means the same, and a
  shape that was there is gone if and only if in some block a leaf comes first now.

An object without properties leaves a block open and ends the reading of it, so that a leaf behind
it is not seen.
-/

namespace HyperSchema

namespace Schema

/-! ## Leaves in front -/

/-- On a walk through a block, a stray leaf comes before every object without properties: of the
stops that declare nothing, the first one is a leaf. -/
def LeafFirst (schema : Json) : Prop :=
  (stops schema).find? (fun stop => (stop.bind properties).isNone) = some none

/-- A stop that declares nothing: a stray leaf, or an object without properties. -/
def Visit.declaresNothing (visit : Visit) : Bool :=
  (visit.members?.bind properties).isNone

variable {schema : Json}

theorem leafFirst_iff (schema : Json) (path : String) :
    LeafFirst schema ↔ ∃ leaf path',
      (visits schema path).find? Visit.declaresNothing = some (.stray leaf path') := by
  rw [LeafFirst, ← map_members?_visits schema path, List.find?_map,
    Option.map_eq_some_iff]
  constructor
  · rintro ⟨visit, isFirst, isLeaf⟩
    cases visit with
    | object => cases isLeaf
    | stray leaf path' => exact ⟨leaf, path', isFirst⟩
  · rintro ⟨leaf, path', isFirst⟩
    exact ⟨_, isFirst, rfl⟩

/-- A leaf that comes first is a leaf. -/
theorem none_mem_stops_of_leafFirst (first : LeafFirst schema) : none ∈ stops schema :=
  List.mem_of_find?_eq_some first

/-- Without objects that declare no properties, a leaf comes first wherever it stands. -/
theorem leafFirst_of_none_mem_stops (mem : none ∈ stops schema)
    (declared : ∀ object ∈ objects schema, (properties object).isSome = true) :
    LeafFirst schema := by
  have found : ((stops schema).find? fun stop => (stop.bind properties).isNone).isSome = true :=
    List.find?_isSome.2 ⟨none, mem, rfl⟩
  rcases Option.isSome_iff_exists.1 found with ⟨stop, isFirst⟩
  cases stop with
  | none => exact isFirst
  | some object =>
      have bare := List.find?_some isFirst
      have known := declared object (mem_objects_iff.2 (List.mem_of_find?_eq_some isFirst))
      rw [Option.bind_some, Option.isNone_iff_eq_none] at bare
      rw [bare] at known
      cases known

end Schema

open Schema

/-- Fields that are the same, whatever the order in which they are listed. -/
inductive Fields.SameMeaning : Fields → Fields → Prop where
  | any : SameMeaning .any .any
  | known {names names' : List String} :
      names.Perm names' → SameMeaning (.known names) (.known names')

theorem Fields.SameMeaning.symm {fields fields' : Fields} (same : fields.SameMeaning fields') :
    fields'.SameMeaning fields := by
  cases same with
  | any => exact .any
  | known perm => exact .known perm.symm

namespace RequestShape

/-- Shapes with the same type and the same fields, of which both or none can be told apart. -/
structure SameMeaning (shape shape' : RequestShape) : Prop where
  recordType : shape'.recordType = shape.recordType
  attributes : shape.attributes.SameMeaning shape'.attributes
  relationships : shape.relationships.SameMeaning shape'.relationships
  ambiguous : shape'.ambiguity? = none ↔ shape.ambiguity? = none

variable {schema schema' data data' body body' : Json} {members members' : Entries Json}
  {path : String}

/-! ## When a block is read -/

/-- The names of the properties are not there at the stops that declare nothing. -/
theorem run_propertyNames_fails_iff (visit : Visit) :
    visit.declaresNothing = true ↔ ∃ e, Visit.run propertyNames visit = .error e := by
  cases visit with
  | stray leaf path' => exact iff_of_true rfl ⟨_, rfl⟩
  | object members path' =>
      show (properties members).isNone = true ↔ ∃ e, propertyNames members path' = .error e
      rw [propertyNames]
      cases properties members with
      | none => exact iff_of_true rfl ⟨_, rfl⟩
      | some props => exact iff_of_false nofun nofun

/-- Collecting the names ends at the first stop that declares nothing. -/
theorem gatherObjects_propertyNames_eq_error_iff {e : SchemaError} :
    gatherObjects propertyNames schema path = .error e ↔
      ∃ visit, (visits schema path).find? Visit.declaresNothing = some visit ∧
        Visit.run propertyNames visit = .error e := by
  rw [gatherObjects_eq_mapM (fun _ _ => rfl)]
  exact mapM_eq_error_iff run_propertyNames_fails_iff

/-- The fields of a block are not read if and only if a leaf comes first in it. -/
theorem blockFields_fails_iff (schema : Json) (path : String) :
    (∃ e, blockFields schema path = .error e) ↔ LeafFirst schema := by
  rw [leafFirst_iff schema path]
  unfold blockFields
  constructor
  · rintro ⟨e, failed⟩
    split at failed
    · cases failed
    · split at failed
      · cases failed
      · cases failed
      · rename_i e' other isError
        cases failed
        rcases gatherObjects_propertyNames_eq_error_iff.1 isError with ⟨visit, isFirst, made⟩
        cases visit with
        | stray leaf path' => exact ⟨leaf, path', isFirst⟩
        | object members path' =>
            -- An object without properties leaves the block open, which is no failure.
            have isBare : propertyNames members path' = .error e := made
            unfold propertyNames at isBare
            split at isBare
            · cases isBare
            · cases isBare
              exact (other _ rfl).elim
  · rintro ⟨leaf, path', isFirst⟩
    split
    · -- A walk does not stop at a reference.
      rename_i target shape
      rw [visits_eq, shape] at isFirst
      cases isFirst
    · rw [gatherObjects_propertyNames_eq_error_iff.2 ⟨_, isFirst, rfl⟩]
      exact ⟨_, rfl⟩

theorem fieldsUnder_fails_iff (block : String) (members : Entries Json) (path : String) :
    (∃ e, fieldsUnder block members path = .error e) ↔
      ∃ schema, blockSchema? block members = some schema ∧ LeafFirst schema := by
  unfold fieldsUnder
  rw [blockSchema?]
  split
  · rename_i schema found
    simp only [found, Option.some.injEq, exists_eq_left']
    exact blockFields_fails_iff schema (propertyPath path block)
  · rename_i lacking
    rw [lacking]
    constructor
    · rintro ⟨e, failed⟩
      cases failed
    · rintro ⟨schema, found, -⟩
      cases found

/-! ## When a body is read -/

/-- A block of one of the records that some data describes. -/
def IsBlock (data schema : Json) : Prop :=
  ∃ members ∈ objects data, ∃ block ∈ [attributesBlock, relationshipsBlock],
    blockSchema? block members = some schema

/-- Data that can be read: it reaches no stray leaf, and in no block of its records a leaf comes
first. -/
def Readable (data : Json) : Prop :=
  none ∉ stops data ∧ ∀ schema, IsBlock data schema → ¬LeafFirst schema

/-- No block of a record reaches both a stray leaf and an object without properties. -/
def Unmixed (data : Json) : Prop :=
  ∀ schema, IsBlock data schema → none ∈ stops schema →
    ∀ object ∈ objects schema, (properties object).isSome = true

/-- Data has a shape if it can be read. -/
theorem ofData_ok_iff (data : Json) (path : String) :
    (∃ shape, ofData data path = .ok shape) ↔ Readable data := by
  have types : (∃ types, gatherObjects (fun members _ => pure (typeOf members)) data path =
      (.ok types : Except SchemaError _)) ↔ none ∉ stops data ∧ ∀ members ∈ objects data, ¬False :=
    gatherObjects_ok_iff fun _ _ => iff_of_false nofun not_false
  have fields (block : String) :
      (∃ sets, gatherObjects (fieldsUnder block) data path = .ok sets) ↔
        none ∉ stops data ∧ ∀ members ∈ objects data,
          ¬∃ schema, blockSchema? block members = some schema ∧ LeafFirst schema :=
    gatherObjects_ok_iff (fieldsUnder_fails_iff block)
  constructor
  · rintro ⟨shape, read⟩
    rcases parts_of_ofData read with ⟨_, _, _, first, second, third, -⟩
    refine ⟨(types.1 ⟨_, first⟩).1, ?_⟩
    rintro schema ⟨members, mem, block, isBlock, found⟩ leafFirst
    rcases List.mem_pair.1 isBlock with rfl | rfl
    · exact ((fields _).1 ⟨_, second⟩).2 members mem ⟨schema, found, leafFirst⟩
    · exact ((fields _).1 ⟨_, third⟩).2 members mem ⟨schema, found, leafFirst⟩
  · rintro ⟨noLeaf, readable⟩
    have gathered (block : String) (isBlock : block ∈ [attributesBlock, relationshipsBlock]) :
        ∃ sets, gatherObjects (fieldsUnder block) data path = .ok sets := by
      refine (fields block).2 ⟨noLeaf, ?_⟩
      rintro members mem ⟨schema, found, leafFirst⟩
      exact readable schema ⟨members, mem, block, isBlock, found⟩ leafFirst
    rcases types.2 ⟨noLeaf, fun _ _ => not_false⟩ with ⟨found, first⟩
    rcases gathered attributesBlock (by decide) with ⟨attributes, second⟩
    rcases gathered relationshipsBlock (by decide) with ⟨relationships, third⟩
    refine ⟨⟨.combine found, .combine attributes, .combine relationships⟩, ?_⟩
    rw [ofData, first, second, third]
    rfl

theorem ofBody_ok_iff (body : Json) (path : String) :
    (∃ found, ofBody body path = .ok found) ↔ ∀ data, data? body = some data → Readable data := by
  rw [ofBody]
  cases data? body with
  | none =>
      refine iff_of_true ⟨_, rfl⟩ fun data envelope => ?_
      cases envelope
  | some data =>
      simp only [Option.some.injEq, forall_eq', ← ofData_ok_iff data (propertyPath path "data")]
      cases ofData data (propertyPath path "data") with
      | ok shape => exact iff_of_true ⟨_, rfl⟩ ⟨_, rfl⟩
      | error e =>
          constructor <;> rintro ⟨found, read⟩ <;> cases read

theorem ofBody_fails_iff (body : Json) (path : String) :
    (∃ e, ofBody body path = .error e) ↔ ¬∀ data, data? body = some data → Readable data := by
  rw [← ofBody_ok_iff body path]
  cases ofBody body path with
  | ok found => exact iff_of_false nofun fun none => none ⟨found, rfl⟩
  | error e => exact iff_of_true ⟨e, rfl⟩ nofun

/-! ## What stays of a record -/

section Records

variable (rearranged : Rearranged (.object members) (.object members'))

include rearranged

theorem blockSchema?_rearranged {block : String} (different : block ≠ "anyOf") :
    Option.Rel Rearranged (blockSchema? block members) (blockSchema? block members') := by
  have declared := properties_rearranged rearranged
  unfold blockSchema?
  revert declared
  cases properties members <;> cases properties members' <;> rintro ⟨declared⟩
  · exact .none
  · exact declared.within.other block different

theorem propertyKeys_rearranged : propertyKeys members' = propertyKeys members := by
  have declared := properties_rearranged rearranged
  unfold propertyKeys
  revert declared
  cases properties members <;> cases properties members' <;> rintro ⟨declared⟩
  · rfl
  · exact declared.within.keys

theorem isSome_properties_rearranged (declared : (properties members).isSome = true) :
    (properties members').isSome = true := by
  have related := properties_rearranged rearranged
  revert related declared
  cases properties members <;> cases properties members' <;> rintro declared ⟨related⟩
  · exact declared
  · rfl

theorem declaresFields_of_rearranged {block : String} (different : block ≠ "anyOf")
    (declares : DeclaresFields block members) : DeclaresFields block members' := by
  intro schema' found'
  rcases exists_of_rel (blockSchema?_rearranged rearranged.symm different) found' with
    ⟨schema, found, back⟩
  exact forall_objects_of_rearranged (fun _ _ => isSome_properties_rearranged) back.symm
    (declares schema found)

theorem declaredFields_of_rearranged {block : String} (different : block ≠ "anyOf") :
    declaredFields block members ⊆ declaredFields block members' := by
  have related := blockSchema?_rearranged rearranged different
  unfold declaredFields
  revert related
  cases blockSchema? block members <;> cases blockSchema? block members' <;> rintro ⟨related⟩
  · exact List.Subset.refl _
  · refine mem_flatMap_objects_of_rearranged (fun object object' alike => ?_) related
    exact (propertyKeys_rearranged alike).symm ▸ List.Subset.refl _

end Records

/-- The one type that a schema admits is the only one that it admits afterwards. -/
theorem constant?_of_rearranged (rearranged : Rearranged schema schema') {name : String}
    (constant : constant? schema = some name) : constant? schema' = some name := by
  have isConst := constant?_eq_some_iff.1 constant
  refine constant?_eq_some_iff.2 (isConst.imp ?_ ?_)
  · exact member?_text_of_rearranged rearranged (by decide)
  · rintro ⟨noConst, isEnum⟩
    refine ⟨fun text isText => ?_, ?_⟩
    · exact noConst text (member?_text_of_rearranged rearranged.symm (by decide) isText)
    · rcases exists_of_rel (member?_rearranged rearranged (by decide)) isEnum with
        ⟨found, stands, inner⟩
      rcases inner.of_array with ⟨names', rfl, itemwise⟩
      rcases itemwise with _ | ⟨single, _ | _⟩
      rw [stands, single.eq_of_plain rfl rfl]

theorem pinsType_of_rearranged (rearranged : Rearranged (.object members) (.object members'))
    {name : String} (pins : PinsType members name) : PinsType members' name := by
  rcases pins with ⟨props, schema, declared, found, constant⟩
  have isType : blockSchema? "type" members = some schema := by
    rw [blockSchema?, declared]
    exact found
  rcases exists_of_rel (blockSchema?_rearranged rearranged (by decide)) isType with
    ⟨schema', found', inner⟩
  rcases Option.bind_eq_some_iff.1 found' with ⟨props', declared', found'⟩
  have admits := constant?_of_rearranged inner (constant?_eq_some_iff.2 constant)
  exact ⟨props', schema', declared', found', constant?_eq_some_iff.1 admits⟩

/-! ## What stays of a body -/

theorem data?_rearranged (rearranged : Rearranged body body') :
    Option.Rel Rearranged (data? body) (data? body') := by
  cases body with
  | object members =>
      rcases rearranged.of_object with ⟨members', rfl, -⟩
      exact blockSchema?_rearranged rearranged (by decide)
  | array items =>
      rcases rearranged.of_array with ⟨items', rfl, -⟩
      exact .none
  | _ =>
      rw [rearranged.eq_of_plain rfl rfl]
      exact .none

/-- The blocks of the records are the same, rearranged. -/
theorem exists_block_of_rearranged (rearranged : Rearranged data data')
    (isBlock : IsBlock data schema) :
    ∃ schema', IsBlock data' schema' ∧ Rearranged schema schema' := by
  rcases isBlock with ⟨members, mem, block, isName, found⟩
  rcases exists_object_of_rearranged rearranged mem with ⟨members', mem', alike⟩
  have different : block ≠ "anyOf" := by
    rcases List.mem_pair.1 isName with rfl | rfl <;> decide
  rcases exists_of_rel (blockSchema?_rearranged alike different) found with
    ⟨schema', found', inner⟩
  exact ⟨schema', ⟨members', mem', block, isName, found'⟩, inner⟩

theorem unmixed_of_rearranged (rearranged : Rearranged data data') (unmixed : Unmixed data) :
    Unmixed data' := by
  intro schema' isBlock' hasLeaf' object' mem'
  rcases exists_block_of_rearranged rearranged.symm isBlock' with ⟨schema, isBlock, back⟩
  rcases exists_object_of_rearranged back mem' with ⟨object, mem, alike⟩
  have declared := unmixed schema isBlock (none_mem_stops_rearranged back hasLeaf') object mem
  exact isSome_properties_rearranged alike.symm declared

/-- Where no block reaches both a stray leaf and an object without properties, data can be read
under every order if it can be read under one. -/
theorem readable_of_rearranged (rearranged : Rearranged data data') (unmixed : Unmixed data)
    (readable : Readable data) : Readable data' := by
  constructor
  · exact fun hasLeaf => readable.1 (none_mem_stops_rearranged rearranged.symm hasLeaf)
  · -- A leaf that comes first somewhere is the first one wherever it stands.
    intro schema' isBlock' leafFirst'
    rcases exists_block_of_rearranged rearranged.symm isBlock' with ⟨schema, isBlock, back⟩
    have hasLeaf := none_mem_stops_rearranged back (none_mem_stops_of_leafFirst leafFirst')
    exact readable.2 schema isBlock
      (leafFirst_of_none_mem_stops hasLeaf (unmixed schema isBlock hasLeaf))

/-! ## What a shape means under another order -/

theorem combine_eq_only_of_rearranged {types types' : List RecordType} {path' : String}
    (rearranged : Rearranged data data')
    (gathered : gatherObjects (fun members _ => pure (typeOf members)) data path =
      (.ok types : Except SchemaError _))
    (gathered' : gatherObjects (fun members _ => pure (typeOf members)) data' path' =
      (.ok types' : Except SchemaError _)) {name : String}
    (only : RecordType.combine types = .only name) : RecordType.combine types' = .only name := by
  refine (combine_eq_only_iff_of_gatherObjects gathered').2 ?_
  exact forall_objects_of_rearranged (fun _ _ alike => pinsType_of_rearranged alike) rearranged
    ((combine_eq_only_iff_of_gatherObjects gathered).1 only)

theorem exists_known_of_rearranged {block : String} {sets sets' : List Fields} {path' : String}
    (rearranged : Rearranged data data') (different : block ≠ "anyOf")
    (gathered : gatherObjects (fieldsUnder block) data path = .ok sets)
    (gathered' : gatherObjects (fieldsUnder block) data' path' = .ok sets') {names : List String}
    (known : Fields.combine sets = .known names) :
    ∃ names', Fields.combine sets' = .known names' ∧ names.Perm names' := by
  rcases (combine_eq_known_iff_of_gatherObjects gathered).1 known with ⟨nonempty, declared, rfl⟩
  have declared' : objects data' ≠ [] ∧ ∀ members ∈ objects data', DeclaresFields block members :=
    forall_objects_of_rearranged (fun _ _ alike => declaresFields_of_rearranged alike different)
      rearranged ⟨nonempty, declared⟩
  refine ⟨_, (combine_eq_known_iff_of_gatherObjects gathered').2
    ⟨declared'.1, declared'.2, rfl⟩, ?_⟩
  refine (List.perm_ext_iff_of_nodup (nodup_eraseDups _) (nodup_eraseDups _)).2 fun name => ?_
  rw [List.mem_eraseDups, List.mem_eraseDups]
  constructor
  · exact fun mem => mem_flatMap_objects_of_rearranged
      (fun _ _ alike => declaredFields_of_rearranged alike different) rearranged mem
  · exact fun mem => mem_flatMap_objects_of_rearranged
      (fun _ _ alike => declaredFields_of_rearranged alike different) rearranged.symm mem

theorem combine_types_of_rearranged {types types' : List RecordType} {path' : String}
    (rearranged : Rearranged data data')
    (gathered : gatherObjects (fun members _ => pure (typeOf members)) data path =
      (.ok types : Except SchemaError _))
    (gathered' : gatherObjects (fun members _ => pure (typeOf members)) data' path' =
      (.ok types' : Except SchemaError _)) :
    RecordType.combine types' = RecordType.combine types := by
  cases left : RecordType.combine types with
  | only name => exact combine_eq_only_of_rearranged rearranged gathered gathered' left
  | any =>
      cases right : RecordType.combine types' with
      | any => rfl
      | only name =>
          have back := combine_eq_only_of_rearranged rearranged.symm gathered' gathered right
          cases left.symm.trans back

theorem combine_fields_of_rearranged {block : String} {sets sets' : List Fields} {path' : String}
    (rearranged : Rearranged data data') (different : block ≠ "anyOf")
    (gathered : gatherObjects (fieldsUnder block) data path = .ok sets)
    (gathered' : gatherObjects (fieldsUnder block) data' path' = .ok sets') :
    (Fields.combine sets).SameMeaning (Fields.combine sets') := by
  cases left : Fields.combine sets with
  | known names =>
      rcases exists_known_of_rearranged rearranged different gathered gathered' left with
        ⟨names', right, perm⟩
      rw [right]
      exact .known perm
  | any =>
      cases right : Fields.combine sets' with
      | any => exact .any
      | known names' =>
          rcases exists_known_of_rearranged rearranged.symm different gathered' gathered right with
            ⟨names, back, -⟩
          cases left.symm.trans back

/-- Whether flat arguments can be told apart does not depend on the order of the fields. -/
theorem ambiguity?_eq_none_of_sameMeaning {type : RecordType}
    {attributes attributes' relationships relationships' : Fields}
    (sameAttributes : attributes.SameMeaning attributes')
    (sameRelationships : relationships.SameMeaning relationships')
    (clear : ambiguity? ⟨type, attributes, relationships⟩ = none) :
    ambiguity? ⟨type, attributes', relationships'⟩ = none := by
  rcases ambiguity?_eq_none_iff.1 clear with ⟨one, known, apart⟩
  refine ambiguity?_eq_none_iff.2 ⟨one, ?_, ?_⟩
  · rintro ⟨⟨⟩, ⟨⟩⟩
    cases sameAttributes
    cases sameRelationships
    exact known ⟨rfl, rfl⟩
  · rintro own' others' ⟨⟩ ⟨⟩
    rcases sameAttributes with _ | ⟨perm⟩
    rcases sameRelationships with _ | ⟨perm'⟩
    intro name mem mem'
    exact apart _ _ rfl rfl (perm.mem_iff.2 mem) (perm'.mem_iff.2 mem')

/-- Data that has a shape under both orders has the same shape, but for the order of the fields. -/
theorem sameMeaning_of_ofData {shape shape' : RequestShape} {path' : String}
    (rearranged : Rearranged data data') (read : ofData data path = .ok shape)
    (read' : ofData data' path' = .ok shape') : shape.SameMeaning shape' := by
  rcases parts_of_ofData read with ⟨types, attributes, relationships, first, second, third, rfl⟩
  rcases parts_of_ofData read' with
    ⟨types', attributes', relationships', first', second', third', rfl⟩
  have sameType := combine_types_of_rearranged rearranged first first'
  have sameAttributes := combine_fields_of_rearranged rearranged (by decide) second second'
  have sameRelationships := combine_fields_of_rearranged rearranged (by decide) third third'
  refine ⟨sameType, sameAttributes, sameRelationships, ?_⟩
  rw [sameType]
  exact ⟨ambiguity?_eq_none_of_sameMeaning sameAttributes.symm sameRelationships.symm,
    ambiguity?_eq_none_of_sameMeaning sameAttributes sameRelationships⟩

/-- Bodies that have a shape under both orders have the same one, but for the order of fields. -/
theorem sameMeaning_of_ofBody {found found' : Option RequestShape} {path' : String}
    (rearranged : Rearranged body body') (read : ofBody body path = .ok found)
    (read' : ofBody body' path' = .ok found') : Option.Rel SameMeaning found found' := by
  have related := data?_rearranged rearranged
  cases envelope : data? body with
  | some data =>
      rcases exists_of_rel related envelope with ⟨data', envelope', inner⟩
      rcases shape_of_ofBody read envelope with ⟨shape, rfl, made⟩
      rcases shape_of_ofBody read' envelope' with ⟨shape', rfl, made'⟩
      exact .some (sameMeaning_of_ofData inner made made')
  | none =>
      have lacking : data? body' = none := by
        rw [envelope] at related
        generalize data? body' = found at related
        cases related
        rfl
      rw [ofBody, envelope] at read
      rw [ofBody, lacking] at read'
      cases read
      cases read'
      exact .none

/-- Where a body has a shape, one that differs in the order of branches has none if and only if in
some block of the other a leaf comes first. -/
theorem ofBody_fails_iff_of_rearranged {found : Option RequestShape}
    (rearranged : Rearranged body body') (read : ofBody body path = .ok found) :
    (∃ e, ofBody body' path = .error e) ↔
      ∃ data' block, data? body' = some data' ∧ IsBlock data' block ∧ LeafFirst block := by
  have readable := (ofBody_ok_iff body path).1 ⟨found, read⟩
  rw [ofBody_fails_iff]
  constructor
  · intro unread
    by_contra noneFirst
    refine unread fun data' envelope' => ⟨fun hasLeaf => ?_, fun block isBlock leafFirst => ?_⟩
    · -- A stray leaf in the data would be one under the first order as well.
      rcases exists_of_rel (data?_rearranged rearranged.symm) envelope' with
        ⟨data, envelope, back⟩
      exact (readable data envelope).1 (none_mem_stops_rearranged back hasLeaf)
    · exact noneFirst ⟨data', block, envelope', isBlock, leafFirst⟩
  · rintro ⟨data', block, envelope', isBlock, leafFirst⟩ readable'
    exact (readable' data' envelope').2 block isBlock leafFirst

/-- Where no block reaches both a stray leaf and an object without properties, the order does not
matter to whether a body has a shape. -/
theorem ofBody_ok_iff_of_unmixed (rearranged : Rearranged body body')
    (unmixed : ∀ data, data? body = some data → Unmixed data) (path : String) :
    (∃ found, ofBody body path = .ok found) ↔ ∃ found', ofBody body' path = .ok found' := by
  rw [ofBody_ok_iff, ofBody_ok_iff]
  constructor
  · intro readable data' envelope'
    rcases exists_of_rel (data?_rearranged rearranged.symm) envelope' with ⟨data, envelope, back⟩
    exact readable_of_rearranged back.symm (unmixed data envelope) (readable data envelope)
  · intro readable' data envelope
    rcases exists_of_rel (data?_rearranged rearranged) envelope with ⟨data', envelope', inner⟩
    have unmixed' := unmixed_of_rearranged inner (unmixed data envelope)
    exact readable_of_rearranged inner.symm unmixed' (readable' data' envelope')

/-- Bodies that differ in the order of branches have the same shape, if they both have one: the same
type, the same fields in some order, and both or none can be told apart.  Of two such bodies one may
have a shape and the other none, and exactly if in some block of the other a stray leaf comes before
every object without properties.  Where no block reaches both, the order does not matter. -/
theorem shape_of_rearranged (rearranged : Rearranged body body') (path : String) :
    (∀ found found', ofBody body path = .ok found → ofBody body' path = .ok found' →
      Option.Rel SameMeaning found found') ∧
    (∀ found, ofBody body path = .ok found →
      ((∃ e, ofBody body' path = .error e) ↔
        ∃ data' block, data? body' = some data' ∧ IsBlock data' block ∧ LeafFirst block)) ∧
    ((∀ data, data? body = some data → Unmixed data) →
      ((∃ found, ofBody body path = .ok found) ↔ ∃ found', ofBody body' path = .ok found')) := by
  refine ⟨?same, ?exact, ?unmixed⟩
  case same =>
      intro found found' read read'
      exact sameMeaning_of_ofBody rearranged read read'
  case exact =>
      intro found read
      exact ofBody_fails_iff_of_rearranged rearranged read
  case unmixed =>
      intro unmixed
      exact ofBody_ok_iff_of_unmixed rearranged unmixed path

/-! ### An open block beside a text -/

/-- A body with an item whose attributes have these branches. -/
def itemWithBranches (branches : List Json) : Json :=
  .object [("properties", .object [("data", .object [("properties", .object [
    ("type", .object [("const", .string "item")]),
    ("attributes", .object [("anyOf", .array branches)])])])])]

/-- An object without properties. -/
def openObject : Json := .object [("type", .string "object")]

/-- A text, which is a leaf. -/
def textLeaf : Json := .object [("type", .string "string")]

theorem rearranged_itemWithBranches {branches branches' : List Json}
    (perm : branches.Perm branches') :
    Rearranged (itemWithBranches branches) (itemWithBranches branches') := by
  have inside : Rearranged (.object [("anyOf", .array branches)])
      (.object [("anyOf", .array branches')]) :=
    .branches rfl perm
  exact .under "properties" rfl (.under "data" rfl (.under "properties" rfl
    (.under "attributes" rfl inside rfl) rfl) rfl) rfl

/-- Behind the object that leaves the attributes open, the text is not seen; in front of it, it is
an error. -/
theorem shape_of_textLeaf_openObject :
    Rearranged (itemWithBranches [openObject, textLeaf]) (itemWithBranches [textLeaf, openObject]) ∧
      ofBody (itemWithBranches [openObject, textLeaf]) "#" =
        .ok (some ⟨.only "item", .any, .known []⟩) ∧
      ofBody (itemWithBranches [textLeaf, openObject]) "#" =
        .error (.shapeAt "#/properties/data/properties/attributes/anyOf/0" textLeaf) ∧
      ∃ data block, data? (itemWithBranches [textLeaf, openObject]) = some data ∧
        IsBlock data block ∧ LeafFirst block := by
  have rearranged := rearranged_itemWithBranches (List.Perm.swap textLeaf openObject [])
  have read : ofBody (itemWithBranches [openObject, textLeaf]) "#" =
      .ok (some ⟨.only "item", .any, .known []⟩) := by
    decide +kernel
  have failed : ofBody (itemWithBranches [textLeaf, openObject]) "#" =
      .error (.shapeAt "#/properties/data/properties/attributes/anyOf/0" textLeaf) := by
    decide +kernel
  rcases shape_of_rearranged rearranged "#" with ⟨-, exactly, -⟩
  exact ⟨rearranged, read, failed, (exactly _ read).1 ⟨_, failed⟩⟩

end RequestShape

end HyperSchema
