import HyperSchema.Proofs.Schema.FlatContents

/-!
# Shadowing — the properties that a flat record overwrites, and the reports of them

The properties of a flat record are collected in a map, so that a later one takes the place of an
earlier one of the same name.  This file defines:

* `Schema.repeatedAfter`, the names that come again;
* `Schema.warnings_addProperties` and `Schema.length_addProperties`: adding properties reports every
  name that comes again, so that no entry is lost without a report;
* `Schema.shadowReports`, the number of these reports;
* `Schema.shadowReports_of_flattenRecord`: the reports account for all properties that were read,
  except that `meta` is stored without looking for a field of this name.
-/

namespace HyperSchema

/-- Storing a value adds an entry if and only if the name is new. -/
theorem Entries.length_insert {α : Type} (entries : Entries α) (key : String) (value : α) :
    (entries.insert key value).length =
      if key ∈ entries.keys then entries.length else entries.length + 1 := by
  have names := congrArg List.length (keys_insert entries key value)
  rw [keys, List.length_map] at names
  rw [names]
  split
  · rw [keys, List.length_map]
  · rw [List.length_append, List.length_singleton, keys, List.length_map]

namespace Schema

variable {root : Json} {members props out : Entries Json} {path : String}

/-! ## Names that come again -/

/-- The names of a list that come again, in order, where some names are known before it. -/
def repeatedAfter (known : List String) : List String → List String
  | [] => []
  | name :: rest =>
      if name ∈ known then name :: repeatedAfter known rest
      else repeatedAfter (known ++ [name]) rest

/-- Every name that comes again is reported, in order, and nothing else is. -/
theorem warnings_addProperties (path : String) (flat added : Entries Json) :
    (addProperties path flat added).warnings =
      (repeatedAfter flat.keys added.keys).map (Warning.shadowedProperty path) := by
  induction added generalizing flat with
  | nil => rfl
  | cons entry rest ih =>
      rcases entry with ⟨name, schema⟩
      have names : Entries.keys ((name, schema) :: rest) = name :: Entries.keys rest := rfl
      rw [addProperties, names, repeatedAfter]
      by_cases known : name ∈ flat.keys
      · have present : flat.contains name = true := Entries.contains_iff.2 known
        have same : (flat.insert name schema).keys = flat.keys := by
          rw [Entries.keys_insert, if_pos known]
        rw [if_pos present, if_pos known, Noted.warnings_bind, ih, same, List.map_cons]
        rfl
      · have absent : ¬ flat.contains name = true := mt Entries.contains_iff.1 known
        have longer : (flat.insert name schema).keys = flat.keys ++ [name] := by
          rw [Entries.keys_insert, if_neg known]
        rw [if_neg absent, if_neg known, ← longer]
        exact ih (flat.insert name schema)

/-- An entry that is added stands in the map, or one report is given for it. -/
theorem length_addProperties (path : String) (flat added : Entries Json) :
    (addProperties path flat added).warnings.length + (addProperties path flat added).value.length =
      flat.length + added.length := by
  rw [warnings_addProperties, List.length_map]
  induction added generalizing flat with
  | nil => exact Nat.add_comm 0 flat.length
  | cons entry rest ih =>
      rcases entry with ⟨name, schema⟩
      have names : Entries.keys ((name, schema) :: rest) = name :: Entries.keys rest := rfl
      have step := ih (flat.insert name schema)
      rw [Entries.keys_insert, Entries.length_insert] at step
      rw [names, repeatedAfter, value_addProperties_cons, List.length_cons]
      by_cases known : name ∈ flat.keys
      · rw [if_pos known, if_pos known] at step
        rw [if_pos known, List.length_cons]
        omega
      · rw [if_neg known, if_neg known] at step
        rw [if_neg known]
        omega

/-! ## Reports -/

/-- The number of reports that a property shadows an earlier one. -/
def shadowReports {α : Type} (x : Checked α) : Nat :=
  x.warnings.countP fun warning =>
    warning.message == "Flattened property shadows an earlier one."

/-- Where nothing else is reported, all warnings count. -/
theorem shadowReports_eq_length {α : Type} {x : Checked α} {names : List String}
    (h : x.warnings = names.map (Warning.shadowedProperty path)) :
    shadowReports x = names.length := by
  rw [shadowReports, h, List.countP_map, ← List.countP_true]
  rfl

/-! ## Records -/

/-- The names of the fields that the blocks of a record declare, in order. -/
def fieldsOf (attributes relationships : Option Json) : List String :=
  Entries.keys ((declaredIn attributes).getD []) ++
    Entries.keys ((declaredIn relationships).getD [])

theorem names_ofFound (found : Option Json) :
    (Block.ofFound found).names = Entries.keys ((declaredIn found).getD []) := by
  rw [Block.names, properties?_ofFound]

/-- Properties can be added in two parts. -/
theorem addProperties_append (path : String) (flat first second : Entries Json) :
    addProperties path flat (first ++ second) =
      addProperties path flat first >>= fun own => addProperties path own second := by
  induction first generalizing flat with
  | nil => rw [List.nil_append, addProperties, pure_bind]
  | cons entry rest ih =>
      rcases entry with ⟨name, schema⟩
      rw [List.cons_append, addProperties, addProperties]
      split
      · simp only [bind_assoc, ih]
      · exact ih (flat.insert name schema)

/-- The fields that both blocks of a record add. -/
def blockEntries (attributes relationships : Option Json) : Entries Json :=
  (Block.ofFound attributes).attributeEntries ++ (Block.ofFound relationships).relationshipEntries

theorem keys_blockEntries (attributes relationships : Option Json) :
    (blockEntries attributes relationships).keys = fieldsOf attributes relationships := by
  calc (blockEntries attributes relationships).keys
      = (Block.ofFound attributes).attributeEntries.keys ++
          (Block.ofFound relationships).relationshipEntries.keys := List.map_append
    _ = (Block.ofFound attributes).names ++ (Block.ofFound relationships).names := by
          rw [keys_attributeEntries, keys_relationshipEntries]
    _ = fieldsOf attributes relationships := by
          rw [names_ofFound, names_ofFound, fieldsOf]

/-- What a flat record keeps of the record, before the fields of its blocks. -/
theorem select_eq_kept (props : Entries Json) :
    select props ["id", "type"] = kept props "id" ++ kept props "type" := by
  cases isId : props.get? "id" <;> cases isType : props.get? "type" <;>
    simp [kept, select, isId, isType]

/-- The number of properties that are read for a flat record. -/
theorem length_contents (props : Entries Json) (attributes relationships : Option Json) :
    (contents props attributes ((declaredIn relationships).getD [])).length =
      (select props ["id", "type"]).length + (blockEntries attributes relationships).length +
        (kept props "meta").length := by
  have fields : (blockEntries attributes relationships).length =
      ((declaredIn attributes).getD []).length + ((declaredIn relationships).getD []).length := by
    have names := congrArg List.length (keys_blockEntries attributes relationships)
    simpa [fieldsOf, Entries.keys] using names
  rw [contents, select_eq_kept, fields]
  simp only [List.length_append]
  omega

/-- The fields of a flat record, and the reports of those that are overwritten, come from adding all
fields to what is kept. -/
theorem addProperties_of_flattenBlocks
    (h : (flattenBlocks root members props path).result = .ok out) :
    ∃ attributes relationships,
      Option.Rel (Resolves root) (props.get? attributesBlock) attributes ∧
      Option.Rel (Resolves root) (props.get? relationshipsBlock) relationships ∧
      (flattenBlocks root members props path).warnings =
        (addProperties path (select props ["id", "type"])
          (blockEntries attributes relationships)).warnings ∧
      flatFields path props (.ofFound attributes) (.ofFound relationships) =
        (addProperties path (select props ["id", "type"])
          (blockEntries attributes relationships)).value ∧
      ∃ required isOpen, out = flatMembers members
        (flatProperties path props (.ofFound attributes) (.ofFound relationships)) required
          isOpen := by
  rcases blocks_of_flattenBlocks h with ⟨_, _, first, second, isOut⟩
  rcases found_of_block first with ⟨attributes, readAttributes, rfl⟩
  rcases found_of_block second with ⟨relationships, readRelationships, rfl⟩
  refine ⟨attributes, relationships, readAttributes, readRelationships, ?reported, ?collected,
    ?made⟩
  case reported =>
      -- Reading a block gives no warnings, and the steps behind the second block give none.
      have readFirst : (Checked.ofExcept (block root props path attributesBlock)).result = _ :=
        first
      have readSecond : (Checked.ofExcept (block root props path relationshipsBlock)).result = _ :=
        second
      rw [blockEntries, addProperties_append, Noted.warnings_bind, flattenBlocks,
        Checked.warnings_bind_of_ok readFirst,
        Checked.warnings_bind_of_ok (Checked.result_liftM _),
        Checked.warnings_bind_of_ok readSecond,
        Checked.warnings_bind_of_ok (Checked.result_liftM _)]
      simp only [Checked.warnings_ofExcept, Checked.warnings_liftM, Checked.warnings_pure,
        List.nil_append, List.append_nil]
  case collected =>
      rw [blockEntries, addProperties_append, Noted.value_bind, flatFields]
  case made => exact ⟨_, _, isOut⟩

/-- The fields of a flat record have the name `meta` only if a block declares it. -/
theorem meta_mem_flatFields_iff (attributes relationships : Option Json) :
    "meta" ∈ (flatFields path props (.ofFound attributes) (.ofFound relationships)).keys ↔
      "meta" ∈ fieldsOf attributes relationships := by
  have notKept : "meta" ∉ ["id", "type"] := by decide
  rw [mem_keys_flatFields, names_ofFound, names_ofFound, fieldsOf, List.mem_append]
  exact or_iff_right fun own => notKept own.1

/-- Storing `meta` adds a property, unless a field of this name is overwritten. -/
theorem length_flatProperties (path : String) (props : Entries Json)
    (attributes relationships : Option Json) :
    (flatProperties path props (.ofFound attributes) (.ofFound relationships)).length +
        (if props.contains "meta" = true ∧ "meta" ∈ fieldsOf attributes relationships then 1
          else 0) =
      (flatFields path props (.ofFound attributes) (.ofFound relationships)).length +
        (kept props "meta").length := by
  rw [flatProperties, kept, Entries.contains]
  cases props.get? "meta" with
  | none => simp
  | some schema =>
      have stored := Entries.length_insert
        (flatFields path props (.ofFound attributes) (.ofFound relationships)) "meta" schema
      simp only [meta_mem_flatFields_iff] at stored
      by_cases overwritten : "meta" ∈ fieldsOf attributes relationships
      · simp [stored, overwritten]
      · simp [stored, overwritten]

/-- The reports of a record that is flattened name the fields that come again, in order.  Together
with the properties of the flat record they account for all properties that were read, if and only
if no field is overwritten by `meta`; for that one field a report is missing. -/
theorem shadowReports_of_flattenRecord
    (flattened : (flattenRecord root members path).result = .ok out)
    (declared : properties members = some props)
    (hasBlock : (props.contains attributesBlock || props.contains relationshipsBlock) = true) :
    ∃ attributes relationships flat,
      Option.Rel (Resolves root) (props.get? attributesBlock) attributes ∧
      Option.Rel (Resolves root) (props.get? relationshipsBlock) relationships ∧
      properties out = some flat ∧
      (flattenRecord root members path).warnings =
        (repeatedAfter (select props ["id", "type"]).keys (fieldsOf attributes relationships)).map
          (Warning.shadowedProperty path) ∧
      (shadowReports (flattenRecord root members path) + flat.length =
          (contents props attributes ((declaredIn relationships).getD [])).length ↔
        ¬(props.contains "meta" = true ∧ "meta" ∈ fieldsOf attributes relationships)) ∧
      (props.contains "meta" = true ∧ "meta" ∈ fieldsOf attributes relationships →
        shadowReports (flattenRecord root members path) + 1 + flat.length =
          (contents props attributes ((declaredIn relationships).getD [])).length) := by
  rw [flattenRecord_of_block declared hasBlock] at flattened ⊢
  rcases addProperties_of_flattenBlocks flattened with
    ⟨attributes, relationships, readAttributes, readRelationships, given, collected, _, _, rfl⟩
  have reported := given.trans (warnings_addProperties _ _ _)
  rw [keys_blockEntries] at reported
  -- Adding the fields is balanced, and `meta` is the one property that is stored behind them.
  have balance := length_addProperties path (select props ["id", "type"])
    (blockEntries attributes relationships)
  rw [← given, ← collected, reported, List.length_map,
    ← shadowReports_eq_length reported] at balance
  have behind := length_flatProperties path props attributes relationships
  have read := length_contents props attributes relationships
  refine ⟨attributes, relationships, _, readAttributes, readRelationships,
    properties_flatMembers declared, reported, ?_, ?_⟩
  · constructor
    · intro accounted overwritten
      rw [if_pos overwritten] at behind
      omega
    · intro separate
      rw [if_neg separate] at behind
      omega
  · intro overwritten
    rw [if_pos overwritten] at behind
    omega

/-! ### A record whose attribute is overwritten by `meta` -/

/-- The attributes of a page, which are called `type` and `meta`. -/
def pageAttributes : Json :=
  .object [("properties", .object [
    ("type", .object [("const", .string "page")]), ("meta", .object [("type", .string "string")])])]

/-- The properties of a page. -/
def pageProperties : Entries Json :=
  [("type", .object []), ("attributes", pageAttributes), ("meta", .object [])]

/-- A page, of which two properties are overwritten. -/
def page : Entries Json :=
  [("properties", .object pageProperties)]

/-- The flat form of a page. -/
def flatPage : Entries Json :=
  [("properties", .object [("type", .object [("const", .string "page")]), ("meta", .object [])]),
    ("additionalProperties", .bool false)]

/-- Four properties of a page are read and two are left; one of the two that are overwritten is
reported. -/
theorem shadowReports_page :
    (flattenRecord .null page "#/definitions/page").result = .ok flatPage ∧
      properties page = some pageProperties ∧
      (pageProperties.contains attributesBlock || pageProperties.contains relationshipsBlock) =
        true ∧
      shadowReports (flattenRecord .null page "#/definitions/page") = 1 ∧
      ∃ attributes relationships flat,
        Option.Rel (Resolves .null) (pageProperties.get? attributesBlock) attributes ∧
        Option.Rel (Resolves .null) (pageProperties.get? relationshipsBlock) relationships ∧
        properties flatPage = some flat ∧
        shadowReports (flattenRecord .null page "#/definitions/page") + flat.length ≠
          (contents pageProperties attributes ((declaredIn relationships).getD [])).length := by
  have flattened : (flattenRecord .null page "#/definitions/page").result = .ok flatPage := by
    decide +kernel
  rcases shadowReports_of_flattenRecord flattened rfl rfl with
    ⟨attributes, relationships, flat, readAttributes, readRelationships, isFlat, -, accounted, -⟩
  have overwritten : "meta" ∈ fieldsOf attributes relationships := by
    have found : Option.Rel (Resolves .null) (some pageAttributes) attributes := readAttributes
    cases found with
    | some resolves =>
        cases resolves with
        | here => exact List.mem_append_left _ (by decide)
        | along isReference => cases isReference
  exact ⟨flattened, rfl, rfl, by decide +kernel, attributes, relationships, flat, readAttributes,
    readRelationships, isFlat, fun all => accounted.1 all ⟨rfl, overwritten⟩⟩

end Schema

end HyperSchema
