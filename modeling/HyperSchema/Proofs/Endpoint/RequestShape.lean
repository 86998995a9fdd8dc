import HyperSchema.Endpoint.RequestShape
import HyperSchema.Proofs.Repetition
import HyperSchema.Proofs.Schema.Visits

/-!
# Request shapes — what several records have in common

The shape of a request body is put together from the object schemas that its data reaches.  This
file defines:

* `RecordType.combine_eq_only_iff`, when several records have one type;
* `Fields.combine_eq`: where no record repeats a name, the fields of several records are all names
  that these have, each where it first occurs;
* `RequestShape.parts_of_ofData`, what the parts of a shape are collected from;
* `RequestShape.recordType_eq_only_iff`: a shape has one type if all objects in reach pin it, and
  there is such an object;
* `RequestShape.fields_of_ofData`: the fields in the shape of one record are those in its blocks.
-/

namespace HyperSchema

open Schema

/-! ## Several records -/

theorem RecordType.combine_eq_only_iff {types : List RecordType} {name : String} :
    combine types = .only name ↔ types ≠ [] ∧ ∀ type ∈ types, type = .only name := by
  cases types with
  | nil => simp [combine]
  | cons first rest =>
      rw [combine]
      constructor
      · intro h
        split at h
        · rename_i same
          subst h
          refine ⟨List.cons_ne_nil _ _, ?_⟩
          intro type mem
          rcases List.mem_cons.1 mem with rfl | mem
          · rfl
          · exact eq_of_beq (List.all_eq_true.1 same type mem)
        · cases h
      · rintro ⟨-, all⟩
        have same : rest.all (fun other => other == first) = true := by
          rw [List.all_eq_true]
          intro other mem
          rw [all other (List.mem_cons_of_mem _ mem), all first List.mem_cons_self]
          exact beq_self_eq_true _
        rw [if_pos same]
        exact all first List.mem_cons_self

/-- The names of the fields, if they are known. -/
def Fields.names? : Fields → Option (List String)
  | known names => some names
  | any => none

/-- Fields that are known have distinct names. -/
def Fields.IsDistinct : Fields → Prop
  | known names => names.Nodup
  | any => True

/-- Where names are distinct, all names of the other record are added where they first occur. -/
theorem Fields.merge_known {names : List String} (distinct : names.Nodup) (others : List String) :
    merge (.known names) (.known others) = .known (names ++ others).eraseDups := by
  have added : others.foldl addName names = names ++ (others.removeAll names).eraseDups :=
    foldl_append_new names others
  rw [merge, added, List.eraseDups_append, eraseDups_of_nodup distinct]

theorem Fields.foldl_merge_any (sets : List Fields) : sets.foldl merge .any = .any := by
  induction sets with
  | nil => rfl
  | cons first rest ih => exact ih

/-- What is known stays known as long as no record leaves its fields open. -/
theorem Fields.foldl_merge_known {names : List String} (distinct : names.Nodup)
    (sets : List Fields) :
    sets.foldl merge (.known names) =
      match sets.mapM names? with
      | some lists => .known (names ++ lists.flatten).eraseDups
      | none => .any := by
  -- Each record adds to the names so far, so these are general.
  induction sets generalizing names with
  | nil =>
      have same : (names ++ [].flatten).eraseDups = names := by
        rw [List.flatten_nil, List.append_nil, eraseDups_of_nodup distinct]
      exact congrArg known same.symm
  | cons first rest ih =>
      rw [List.foldl_cons, List.mapM_cons]
      cases first with
      | any => exact foldl_merge_any rest
      | known others =>
          rw [merge_known distinct, ih (nodup_eraseDups _)]
          cases rest.mapM names? with
          | none => rfl
          | some lists =>
              have same : ((names ++ others).eraseDups ++ lists.flatten).eraseDups =
                  (names ++ (others ++ lists.flatten)).eraseDups := by
                rw [eraseDups_append_of_eraseDups, List.append_assoc]
              exact congrArg known same

/-- Where no record repeats a name, fields are together what all records have, each name where it
first occurs; they are open if one of the records leaves them open, or if there is none. -/
theorem Fields.combine_eq {sets : List Fields} (distinct : ∀ fields ∈ sets, fields.IsDistinct) :
    combine sets =
      if sets.isEmpty then .any
      else
        match sets.mapM names? with
        | some names => .known names.flatten.eraseDups
        | none => .any := by
  cases sets with
  | nil => rfl
  | cons first rest =>
      rw [List.isEmpty_cons, if_neg Bool.false_ne_true, combine, List.mapM_cons]
      cases first with
      | any => exact foldl_merge_any rest
      | known names =>
          -- The names of the other records are added one by one, so only the first record counts.
          rw [foldl_merge_known (distinct _ List.mem_cons_self)]
          cases rest.mapM names? <;> rfl

namespace RequestShape

variable {body data : Json} {path : String} {shape : RequestShape}

/-! ## Parts of a shape -/

/-- The parts of the shape of some data, each collected from the objects in reach. -/
theorem parts_of_ofData (h : ofData data path = .ok shape) :
    ∃ types attributes relationships,
      gatherObjects (fun members _ => pure (typeOf members)) data path =
        (.ok types : Except SchemaError _) ∧
      gatherObjects (fieldsUnder attributesBlock) data path = .ok attributes ∧
      gatherObjects (fieldsUnder relationshipsBlock) data path = .ok relationships ∧
      shape = ⟨.combine types, .combine attributes, .combine relationships⟩ := by
  rcases ok_of_bind h with ⟨types, first, h⟩
  rcases ok_of_bind h with ⟨attributes, second, h⟩
  rcases ok_of_bind h with ⟨relationships, third, h⟩
  cases h
  exact ⟨types, attributes, relationships, first, second, third, rfl⟩

/-- The shape of a body is that of its data. -/
theorem shape_of_ofBody {found : Option RequestShape} (h : ofBody body path = .ok found)
    (envelope : data? body = some data) :
    ∃ shape, found = some shape ∧ ofData data (propertyPath path "data") = .ok shape := by
  rw [ofBody, envelope] at h
  dsimp only at h
  cases made : ofData data (propertyPath path "data") with
  | error e =>
      rw [made] at h
      cases h
  | ok shape =>
      rw [made] at h
      cases h
      exact ⟨shape, rfl, rfl⟩

/-- The fields in the shape of one record are those in its blocks. -/
theorem fields_of_ofData {members : List (String × Json)} (h : ofData data path = .ok shape)
    (isRecord : data.node = .object members) :
    fieldsUnder attributesBlock members path = .ok shape.attributes ∧
      fieldsUnder relationshipsBlock members path = .ok shape.relationships := by
  rcases parts_of_ofData h with ⟨types, attributes, relationships, -, first, second, rfl⟩
  rw [gatherObjects_eq, isRecord] at first second
  rcases ok_of_bind first with ⟨attributes', read, made⟩
  rcases ok_of_bind second with ⟨relationships', read', made'⟩
  cases made
  cases made'
  exact ⟨read, read'⟩

/-! ## The type -/

/-- A shape has one type if all objects in reach pin it, and there is such an object. -/
theorem recordType_eq_only_iff (h : ofData data path = .ok shape) {name : String} :
    shape.recordType = .only name ↔
      (∃ members, Reaches (.object members) data) ∧
        ∀ members, Reaches (.object members) data → typeOf members = .only name := by
  rcases parts_of_ofData h with ⟨types, -, -, gathered, -, -, rfl⟩
  rw [RecordType.combine_eq_only_iff]
  constructor
  · rintro ⟨nonempty, all⟩
    refine ⟨?_, ?_⟩
    · rcases List.exists_mem_of_ne_nil types nonempty with ⟨type, mem⟩
      rcases reaches_of_mem_gatherObjects gathered mem with ⟨members, -, reach, -⟩
      exact ⟨members, reach⟩
    · intro members reach
      rcases mem_gatherObjects_of_reaches gathered reach with ⟨-, type, mem, made⟩
      cases made
      exact all _ mem
  · rintro ⟨⟨members, reach⟩, all⟩
    refine ⟨?_, ?_⟩
    · rcases mem_gatherObjects_of_reaches gathered reach with ⟨-, type, mem, -⟩
      exact List.ne_nil_of_mem mem
    · intro type mem
      rcases reaches_of_mem_gatherObjects gathered mem with ⟨members, -, reach, made⟩
      cases made
      exact all members reach

/-- Without one type a shape is ambiguous. -/
theorem ambiguity?_of_any (h : shape.recordType = .any) :
    shape.ambiguity? = some .severalTypes := by
  rw [ambiguity?, h]

end RequestShape

end HyperSchema
