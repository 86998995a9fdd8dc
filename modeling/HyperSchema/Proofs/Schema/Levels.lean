import HyperSchema.Proofs.Schema.FlatDocument

/-!
# Levels — when flattening makes a document flat

Flattening moves fields one level up.  What comes up is flat unless it is a block or an envelope
itself.  This file defines:

* `Schema.OneLevelRecord`, `Schema.OneLevelData`, `Schema.OneLevelEnvelope`,
  `Schema.OneLevelDefinition` and `Json.OneLevel`, the documents in which no block holds a block and
  no envelope an envelope;
* `Schema.get?_of_flattenLinkSchemas` and `Schema.members_of_flattenDefinition`, what becomes of the
  members of a link and of a definition;
* `Json.flat_iff_oneLevel`: flattening makes a document flat if and only if it has one level.
-/

namespace HyperSchema

open Schema

namespace Schema

variable {root schema : Json} {members props out : Entries Json} {path : String}

/-! ## Schemas with one level -/

/-- The names of the properties of an envelope. -/
def EnvelopeNames (names : List String) : Prop :=
  "data" ∈ names ∧ ∀ name ∈ names, name = "data" ∨ name ∈ envelopeCompanions

instance (names : List String) : Decidable (EnvelopeNames names) :=
  inferInstanceAs (Decidable (_ ∧ _))

/-- No field of a record goes by the name of a block. -/
def OneLevelRecord (root schema : Json) : Prop :=
  ∀ members props, schema.node = .object members → properties members = some props →
    ∀ block ∈ [attributesBlock, relationshipsBlock],
      attributesBlock ∉ fieldNames root props block ∧
        relationshipsBlock ∉ fieldNames root props block

/-- Data that does not have the properties of an envelope after flattening. -/
def OneLevelData (root data : Json) : Prop :=
  ∀ members props, data.node = .object members → properties members = some props →
    ¬ EnvelopeNames (flatNames root props)

/-- The data of an envelope is no envelope after flattening. -/
def OneLevelEnvelope (root schema : Json) : Prop :=
  ∀ data, dataOfEnvelope? schema = some data → OneLevelData root data

/-- A definition with one level, in itself and in its links. -/
structure OneLevelDefinition (root definition : Json) : Prop where
  record : OneLevelRecord root definition
  links : ∀ links, definition.member? "links" = some (.array links) → ∀ link ∈ links,
    ∀ key ∈ envelopeKeys, ∀ schema, link.member? key = some schema → OneLevelEnvelope root schema

/-! ## Records -/

/-- What is kept of a record has other names than its blocks. -/
theorem block_not_kept :
    ∀ name ∈ [attributesBlock, relationshipsBlock], name ∉ ["id", "type", "meta"] := by
  decide

/-- A flat record has a property with the name of a block only if a field has it. -/
theorem mem_flatNames_iff {name : String} (isBlock : name ∈ [attributesBlock, relationshipsBlock]) :
    name ∈ flatNames root props ↔
      name ∈ fieldNames root props attributesBlock ∨
        name ∈ fieldNames root props relationshipsBlock := by
  rw [flatNames]
  split
  · have notKept : name ∉ ["id", "type", "meta"].filter props.contains :=
      fun kept => block_not_kept name isBlock (List.mem_of_mem_filter kept)
    rw [List.mem_append, List.mem_append, or_assoc, or_iff_right notKept]
  · rename_i noBlock
    rw [Bool.not_eq_true, Bool.or_eq_false_iff] at noBlock
    have noAttributes : props.get? attributesBlock = none :=
      Option.not_isSome_iff_eq_none.1 (Bool.not_eq_true _ ▸ noBlock.1)
    have noRelationships : props.get? relationshipsBlock = none :=
      Option.not_isSome_iff_eq_none.1 (Bool.not_eq_true _ ▸ noBlock.2)
    rw [fieldNames, fieldNames, noAttributes, noRelationships, ← Entries.contains_iff]
    rcases List.mem_pair.1 isBlock with rfl | rfl
    · simp [noBlock.1]
    · simp [noBlock.2]

theorem no_block_iff :
    (props.contains attributesBlock || props.contains relationshipsBlock) = false ↔
      attributesBlock ∉ props.keys ∧ relationshipsBlock ∉ props.keys := by
  rw [Bool.or_eq_false_iff, ← Bool.not_eq_true, ← Bool.not_eq_true, Entries.contains_iff,
    Entries.contains_iff]

/-- A flat record has no property with the name of a block if and only if no field has it. -/
theorem no_block_flat_iff {flat : Entries Json}
    (names : ∀ name, name ∈ flat.keys ↔ name ∈ flatNames root props) :
    (flat.contains attributesBlock || flat.contains relationshipsBlock) = false ↔
      ∀ block ∈ [attributesBlock, relationshipsBlock],
        attributesBlock ∉ fieldNames root props block ∧
          relationshipsBlock ∉ fieldNames root props block := by
  rw [no_block_iff, names, names, mem_flatNames_iff List.mem_cons_self,
    mem_flatNames_iff (List.mem_cons_of_mem _ List.mem_cons_self), List.forall_mem_cons,
    List.forall_mem_singleton]
  grind

/-- What is flat about a schema depends on these members only. -/
theorem flatRecord_congr {others : Entries Json}
    (same : ∀ key ∈ ["$ref", "anyOf", "properties", "type"], members.get? key = others.get? key) :
    FlatRecord (.object members) ↔ FlatRecord (.object others) := by
  have properties_eq : properties members = properties others := by
    rw [properties, properties, same "properties" (by decide)]
  constructor
  · intro flat members' props shape found
    cases eq_object_of_node_object shape
    exact flat members props ((node_object_congr same).2 shape) (properties_eq.trans found)
  · intro flat members' props shape found
    cases eq_object_of_node_object shape
    exact flat others props ((node_object_congr same).1 shape) (properties_eq.symm.trans found)

/-- A definition becomes a flat record if and only if no field goes by the name of a block. -/
theorem flatRecord_iff_oneLevelRecord (h : (flattenMembers root members path).result = .ok out) :
    FlatRecord (.object out) ↔ OneLevelRecord root (.object members) := by
  rw [flattenMembers] at h
  split at h
  · rename_i members' shape
    cases eq_object_of_node_object shape
    have shapeOut := node_of_flattenRecord h shape
    constructor
    · intro flat members' props shape' found
      cases eq_object_of_node_object shape'
      rcases properties_of_flattenRecord h found with ⟨flatProps, declared, names⟩
      exact (no_block_flat_iff names).1 (flat out flatProps shapeOut declared)
    · intro oneLevel members' flatProps shape' declared
      cases eq_object_of_node_object shape'
      cases found : properties members with
      | none =>
          -- Without properties nothing is flattened, so there are none afterwards.
          rw [flattenRecord_of_properties_eq_none found] at h
          cases h
          cases found.symm.trans declared
      | some props =>
          rcases properties_of_flattenRecord h found with ⟨flatProps', declared', names⟩
          cases declared.symm.trans declared'
          exact (no_block_flat_iff names).2 (oneLevel members props shape found)
  · rename_i other
    cases h
    constructor
    · intro _ members' props shape
      exact (other members' shape).elim
    · intro _ members' props shape
      exact (other members' shape).elim

/-! ## Envelopes -/

/-- An envelope has no properties but `data` and its companions. -/
theorem envelopeData?_eq (props : Entries Json) :
    envelopeData? props =
      if ∀ name ∈ props.keys, name = "data" ∨ name ∈ envelopeCompanions then props.get? "data"
      else none := by
  simp only [envelopeData?, List.all_eq_true, Bool.or_eq_true, beq_iff_eq, List.contains_iff_mem]

theorem envelopeData?_eq_none_iff : envelopeData? props = none ↔ ¬ EnvelopeNames props.keys := by
  rw [envelopeData?_eq, EnvelopeNames, ← Entries.contains_iff]
  split
  · rename_i companions
    rw [and_iff_left companions, Entries.contains, Option.not_isSome_iff_eq_none]
  · rename_i others
    exact iff_of_true rfl fun both => others both.2

/-- Whether names are those of an envelope does not depend on their order. -/
theorem envelopeNames_congr {names others : List String}
    (same : ∀ name, name ∈ names ↔ name ∈ others) : EnvelopeNames names ↔ EnvelopeNames others := by
  simp only [EnvelopeNames, same]

theorem mapObjects_object {f : List (String × Json) → String → Checked (List (String × Json))}
    (shape : schema.node = .object members) :
    mapObjects f schema path = do return .object (← f members path) := by
  rw [mapObjects]
  split <;> rename_i shape' <;> cases shape'.symm.trans shape
  rfl

/-- No other schema becomes an object schema. -/
theorem not_object_of_mapObjects
    {f : List (String × Json) → String → Checked (List (String × Json))} {made : Json}
    (h : (mapObjects f schema path).result = .ok made)
    (other : ∀ members, schema.node ≠ .object members) :
    ∀ members, made.node ≠ .object members := by
  intro members shape
  cases eq_object_of_node_object shape
  -- Items are not among the members by which an object schema is told.
  have notItems : ∀ (members : Entries Json) (items : Json),
      (Json.object (members.insert "items" items)).node = .object (members.insert "items" items) →
        (Json.object members).node = .object members := by
    intro members items
    refine (node_object_congr ?_).1
    intro key mem
    rw [Entries.get?_insert, if_neg]
    rintro rfl
    revert mem
    decide
  rw [mapObjects] at h
  split at h
  · cases h
    exact other _ shape
  · exact other _ ‹_›
  · rcases Checked.ok_of_bind h with ⟨branches, -, h⟩
    cases h
    -- A union stays one, since `anyOf` goes before the type and the properties.
    have noUnion := (node_eq_object_iff.1 shape).2.1
    rw [Entries.get?_insert, if_pos rfl] at noUnion
    cases noUnion
  · rename_i members' item isArray
    rcases Checked.ok_of_bind h with ⟨item', -, h⟩
    cases h
    cases (eq_object_of_node_array isArray).1
    exact other _ (notItems _ _ shape)
  · rename_i members' schemas isArray
    rcases Checked.ok_of_bind h with ⟨schemas', -, h⟩
    cases h
    cases (eq_object_of_node_array isArray).1
    exact other _ (notItems _ _ shape)
  · cases h
    exact other _ shape
  · cases h

theorem dataOfEnvelope?_of_node_object (shape : schema.node = .object members) :
    dataOfEnvelope? schema = (properties members).bind envelopeData? := by
  rw [dataOfEnvelope?, shape]

theorem dataOfEnvelope?_of_not_object (other : ∀ members, schema.node ≠ .object members) :
    dataOfEnvelope? schema = none := by
  rw [dataOfEnvelope?]
  split
  · rename_i members shape
    exact (other members shape).elim
  · rfl

/-- A flattened record is no envelope if and only if it does not have the properties of one. -/
theorem dataOfEnvelope?_of_flattenRecord (h : (flattenRecord root members path).result = .ok out)
    (shape : (Json.object members).node = .object members) :
    dataOfEnvelope? (.object out) = none ↔ OneLevelData root (.object members) := by
  rw [dataOfEnvelope?_of_node_object (node_of_flattenRecord h shape)]
  cases found : properties members with
  | none =>
      rw [flattenRecord_of_properties_eq_none found] at h
      cases h
      rw [found]
      refine iff_of_true rfl ?_
      intro members' props shape' found'
      cases eq_object_of_node_object shape'
      cases found.symm.trans found'
  | some props =>
      rcases properties_of_flattenRecord h found with ⟨flat, declared, names⟩
      rw [declared, Option.bind_some, envelopeData?_eq_none_iff, envelopeNames_congr names]
      constructor
      · intro noEnvelope members' props' shape' found'
        cases eq_object_of_node_object shape'
        cases found.symm.trans found'
        exact noEnvelope
      · exact fun oneLevel => oneLevel members props shape found

/-- Flattened data is no envelope if and only if it does not have the properties of one. -/
theorem dataOfEnvelope?_of_mapObjects {data made : Json}
    (h : (mapObjects (flattenRecord root) data path).result = .ok made) :
    dataOfEnvelope? made = none ↔ OneLevelData root data := by
  by_cases isRecord : ∃ members, data.node = .object members
  · rcases isRecord with ⟨members, shape⟩
    cases eq_object_of_node_object shape
    rw [mapObjects_object shape] at h
    rcases Checked.ok_of_bind h with ⟨flat, flattened, h⟩
    cases h
    exact dataOfEnvelope?_of_flattenRecord flattened shape
  · rw [not_exists] at isRecord
    refine iff_of_true (dataOfEnvelope?_of_not_object (not_object_of_mapObjects h isRecord)) ?_
    exact fun members props shape => (isRecord members shape).elim

/-- The schema of a link has no envelope left if and only if it has one level. -/
theorem dataOfEnvelope?_eq_none_iff {made : Json}
    (h : (flattenLinkSchema root schema path).result = .ok made) :
    dataOfEnvelope? made = none ↔ OneLevelEnvelope root schema := by
  rw [flattenLinkSchema] at h
  cases envelope : dataOfEnvelope? schema with
  | none =>
      rw [envelope] at h
      cases h
      refine iff_of_true envelope ?_
      intro data envelope'
      cases envelope.symm.trans envelope'
  | some data =>
      rw [envelope] at h
      rw [dataOfEnvelope?_of_mapObjects h, OneLevelEnvelope, envelope]
      simp only [Option.some.injEq, forall_eq']

/-! ## Links -/

/-- The members of a link under the given names are flattened, all others are kept. -/
theorem get?_of_flattenLinkSchemas {link flat : Entries Json} {names : List String}
    (h : (flattenLinkSchemas root path link names flat).result = .ok out) (key : String) :
    (key ∉ names ∨ link.get? key = none → out.get? key = flat.get? key) ∧
      ∀ schema, key ∈ names → link.get? key = some schema → ∃ made,
        (flattenLinkSchema root schema (path ++ "/" ++ key)).result = .ok made ∧
          out.get? key = some made := by
  -- The first part says that what was stored for one name is not lost while the others are handled.
  induction names generalizing flat with
  | nil =>
      cases h
      exact ⟨fun _ => rfl, fun schema mem => absurd mem List.not_mem_nil⟩
  | cons name rest ih =>
      rw [flattenLinkSchemas] at h
      cases present : link.get? name with
      | none =>
          rw [present] at h
          rcases ih h with ⟨kept, renewed⟩
          refine ⟨?_, ?_⟩
          · rintro (other | absent)
            · exact kept (.inl fun mem => other (List.mem_cons_of_mem _ mem))
            · exact kept (.inr absent)
          · intro schema mem found
            rcases List.mem_cons.1 mem with rfl | mem
            · cases present.symm.trans found
            · exact renewed schema mem found
      | some first =>
          rw [present] at h
          dsimp only at h
          rcases Checked.ok_of_bind h with ⟨made, flattened, h⟩
          rcases ih h with ⟨kept, renewed⟩
          refine ⟨?_, ?_⟩
          · rintro (other | absent)
            · rw [List.mem_cons, not_or] at other
              rw [kept (.inl other.2), Entries.get?_insert, if_neg (Ne.symm other.1)]
            · -- The link has the name that is stored and lacks the other one.
              have different : name ≠ key := by
                rintro rfl
                cases present.symm.trans absent
              rw [kept (.inr absent), Entries.get?_insert, if_neg different]
          · intro schema mem found
            by_cases later : key ∈ rest
            · exact renewed schema later found
            · rcases List.mem_cons.1 mem with rfl | mem
              · cases present.symm.trans found
                refine ⟨made, flattened, ?_⟩
                rw [kept (.inl later), Entries.get?_insert, if_pos rfl]
              · exact absurd mem later

/-- A link becomes flat if and only if its envelopes have one level. -/
theorem flatLink_iff {link made : Json} (h : (flattenLink root link path).result = .ok made) :
    FlatLink made ↔
      ∀ key ∈ envelopeKeys, ∀ schema, link.member? key = some schema →
        OneLevelEnvelope root schema := by
  cases link with
  | object members =>
      rw [flattenLink] at h
      rcases Checked.ok_of_bind h with ⟨flat, flattened, h⟩
      cases h
      refine forall₂_congr fun key isKey => ?_
      rcases get?_of_flattenLinkSchemas flattened key with ⟨kept, renewed⟩
      rw [Json.member?_object, Json.member?_object]
      cases present : Entries.get? members key with
      | none =>
          rw [kept (.inr present), present]
          simp only [reduceCtorEq, false_imp_iff, implies_true]
      | some schema =>
          rcases renewed schema isKey present with ⟨made, flattened', found⟩
          rw [found]
          simp only [Option.some.injEq, forall_eq']
          exact dataOfEnvelope?_eq_none_iff flattened'
  | _ =>
      cases h
      exact forall₂_congr fun key _ => by simp [Json.member?]

/-- The links of a definition are flattened in order, each at its position. -/
theorem forall₂_zipIdx_of_flattenLinks {links made : List Json} {i : Nat}
    (h : (flattenLinks root path i links).result = .ok made) :
    List.Forall₂ (fun entry made =>
        (flattenLink root entry.1 (path ++ "/links/" ++ toString entry.2)).result = .ok made)
      (links.zipIdx i) made := by
  induction links generalizing i made with
  | nil =>
      cases h
      exact .nil
  | cons link rest ih =>
      rw [flattenLinks] at h
      rcases Checked.ok_of_bind h with ⟨first, head, h⟩
      rcases Checked.ok_of_bind h with ⟨others, tail, h⟩
      cases h
      rw [List.zipIdx_cons]
      exact .cons head (ih tail)

theorem forall₂_of_flattenLinks {links made : List Json} {i : Nat}
    (h : (flattenLinks root path i links).result = .ok made) :
    List.Forall₂ (fun link made => ∃ path, (flattenLink root link path).result = .ok made) links
      made := by
  rw [← List.zipIdx_map_fst i links, List.forall₂_map_left_iff]
  exact (forall₂_zipIdx_of_flattenLinks h).imp fun _ _ one => ⟨_, one⟩

/-! ## Definitions -/

/-- The members of a definition that are not about properties are kept. -/
theorem get?_of_flattenMembers (h : (flattenMembers root members path).result = .ok out)
    {key : String} (other : key ∉ ["properties", "required", "additionalProperties"]) :
    out.get? key = members.get? key := by
  rw [flattenMembers] at h
  split at h
  · exact get?_of_flattenRecord h other
  · cases h
    rfl

/-- A flat definition is put together from what stands beside its links and, where these are an
array, from the links. -/
theorem parts_of_flattenDefinition {made : Json}
    (h : (flattenDefinition root (.object members) path).result = .ok made) :
    ∃ flat, (flattenMembers root members path).result = .ok flat ∧
      ((∃ links flatLinks, members.get? "links" = some (.array links) ∧
          (flattenLinks root path 0 links).result = .ok flatLinks ∧
          made = .object (Entries.insert flat "links" (.array flatLinks))) ∨
        (∀ links, members.get? "links" ≠ some (.array links)) ∧ made = .object flat) := by
  rw [flattenDefinition] at h
  rcases Checked.ok_of_bind h with ⟨flat, flattened, h⟩
  refine ⟨flat, flattened, ?_⟩
  split at h
  · rename_i links found
    rcases Checked.ok_of_bind h with ⟨flatLinks, each, h⟩
    cases h
    exact .inl ⟨links, flatLinks, found, each, rfl⟩
  · rename_i noLinks
    cases h
    exact .inr ⟨noLinks, rfl⟩

/-- A definition is flattened in its links and in what stands beside them. -/
theorem members_of_flattenDefinition {made : Json}
    (h : (flattenDefinition root (.object members) path).result = .ok made) :
    ∃ flat out : Entries Json, (flattenMembers root members path).result = .ok flat ∧
      made = .object out ∧ (∀ key, key ≠ "links" → out.get? key = flat.get? key) ∧
      ((∃ links flatLinks, members.get? "links" = some (.array links) ∧
          out.get? "links" = some (.array flatLinks) ∧
          (flattenLinks root path 0 links).result = .ok flatLinks) ∨
        (∀ links, members.get? "links" ≠ some (.array links)) ∧
          out.get? "links" = members.get? "links") := by
  rcases parts_of_flattenDefinition h with
    ⟨flat, flattened, ⟨links, flatLinks, found, each, rfl⟩ | ⟨noLinks, rfl⟩⟩
  · refine ⟨flat, _, flattened, rfl, ?_, .inl ⟨links, flatLinks, found, ?_, each⟩⟩
    · intro key other
      rw [Entries.get?_insert, if_neg (Ne.symm other)]
    · rw [Entries.get?_insert, if_pos rfl]
  · exact ⟨flat, flat, flattened, rfl, fun key _ => rfl,
      .inr ⟨noLinks, get?_of_flattenMembers flattened (by decide)⟩⟩

theorem flatDefinition_of_not_object {definition : Json}
    (other : ∀ members, definition ≠ .object members) : FlatDefinition definition := by
  refine ⟨fun members props shape => (other members (eq_object_of_node_object shape)).elim, ?_⟩
  intro links present
  cases definition with
  | object members => exact (other members rfl).elim
  | _ => cases present

theorem oneLevelDefinition_of_not_object {definition : Json}
    (other : ∀ members, definition ≠ .object members) : OneLevelDefinition root definition := by
  refine ⟨fun members props shape => (other members (eq_object_of_node_object shape)).elim, ?_⟩
  intro links present
  cases definition with
  | object members => exact (other members rfl).elim
  | _ => cases present

/-- A definition becomes flat if and only if it has one level. -/
theorem flatDefinition_iff_oneLevelDefinition {definition made : Json}
    (h : (flattenDefinition root definition path).result = .ok made) :
    FlatDefinition made ↔ OneLevelDefinition root definition := by
  cases definition with
  | object members =>
      rcases members_of_flattenDefinition h with ⟨flat, out, flattened, rfl, kept, links⟩
      -- The links are not among the members by which a record is told.
      have record : FlatRecord (.object out) ↔ OneLevelRecord root (.object members) := by
        rw [← flatRecord_iff_oneLevelRecord flattened]
        refine flatRecord_congr ?_
        intro key mem
        refine kept key ?_
        rintro rfl
        revert mem
        decide
      rcases links with ⟨links, flatLinks, found, found', each⟩ | ⟨noLinks, same⟩
      · have eachFlat := forall_iff_of_forall₂
          (fun link made ⟨_, one⟩ => (flatLink_iff one).symm) (forall₂_of_flattenLinks each)
        constructor
        · rintro ⟨flatRecord, flatAll⟩
          refine ⟨record.1 flatRecord, ?_⟩
          intro links' present
          cases found.symm.trans present
          exact eachFlat.2 (flatAll flatLinks found')
        · rintro ⟨oneLevel, oneLevelAll⟩
          refine ⟨record.2 oneLevel, ?_⟩
          intro links' present
          cases found'.symm.trans present
          exact eachFlat.1 (oneLevelAll links found)
      · constructor
        · rintro ⟨flatRecord, -⟩
          exact ⟨record.1 flatRecord, fun links present => (noLinks links present).elim⟩
        · rintro ⟨oneLevel, -⟩
          exact ⟨record.2 oneLevel, fun links present => (noLinks links (same ▸ present)).elim⟩
  | _ =>
      cases h
      exact iff_of_true (flatDefinition_of_not_object (by simp))
        (oneLevelDefinition_of_not_object (by simp))

/-- The definitions of a document are flattened in order and keep their names. -/
theorem forall₂_of_flattenDefinitions {found flat : Entries Json}
    (h : (flattenDefinitions root found).result = .ok flat) :
    List.Forall₂ (fun entry made => made.1 = entry.1 ∧
        (flattenDefinition root entry.2 (definitionPath entry.1)).result = .ok made.2)
      found flat := by
  induction found generalizing flat with
  | nil =>
      cases h
      exact .nil
  | cons entry rest ih =>
      rcases entry with ⟨name, definition⟩
      rw [flattenDefinitions] at h
      rcases Checked.ok_of_bind h with ⟨first, head, h⟩
      rcases Checked.ok_of_bind h with ⟨others, tail, h⟩
      cases h
      exact .cons ⟨rfl, head⟩ (ih tail)

end Schema

/-! ## Documents -/

namespace Json

variable {document out : Json}

/-- A document whose definitions have one level. -/
def OneLevel (document : Json) : Prop :=
  ∀ found, definitions document = .ok found → ∀ entry ∈ found,
    OneLevelDefinition document entry.2

/-- Flattening a document flattens its definitions. -/
theorem definitions_of_flattened (h : document.flattened.result = .ok out) :
    ∃ found flat, definitions document = .ok found ∧
      (flattenDefinitions document found).result = .ok flat ∧ definitions out = .ok flat := by
  rw [flattened] at h
  rcases Checked.ok_of_bind h with ⟨found, read, h⟩
  rw [Checked.result_ofExcept] at read
  rcases Checked.ok_of_bind h with ⟨flat, flattened', h⟩
  cases h
  refine ⟨found, flat, read, flattened', ?_⟩
  rw [definitions, Entries.get?_insert, if_pos rfl]
  rfl

/-- Flattening makes a document flat if and only if it has one level. -/
theorem flat_iff_oneLevel (h : document.flattened.result = .ok out) :
    out.Flat ↔ document.OneLevel := by
  rcases definitions_of_flattened h with ⟨found, flat, read, flattened', read'⟩
  have each := forall_iff_of_forall₂
    (fun entry made ⟨_, one⟩ => (flatDefinition_iff_oneLevelDefinition one).symm)
    (forall₂_of_flattenDefinitions flattened')
  constructor
  · intro isFlat found' again
    cases read.symm.trans again
    exact each.2 (isFlat flat read')
  · intro oneLevel flat' again
    cases read'.symm.trans again
    exact each.1 (oneLevel found read)

end Json

end HyperSchema
