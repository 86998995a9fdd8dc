import HyperSchema.Proofs.Json.Equality
import HyperSchema.Proofs.Schema.Flattening

/-!
# Hops — how far the references of a block are followed

A record may give its blocks by reference, and a reference may lead to another one.  This file
defines:

* `Schema.hops?`, where a value leads in a number of hops, and `Schema.IsRead`, for values that lead
  to one that is no reference in fewer than 16 hops;
* `Schema.LeadsAround` and `Schema.LeadsNowhere`, the chains without an end and those that break
  off;
* `Schema.isRead_or`, the three fates of a chain, and `Schema.not_isRead`, which exclude each other;
* `Schema.flattenRecord_of_hops`: a block that is read is as good as what it leads to in its place,
  and any other block is an error that shows it.
-/

namespace HyperSchema.Schema

variable {root value final schema : Json} {members props : Entries Json} {path name : String}

/-! ## Chains of references -/

/-- Where the reference that a value is leads. -/
def hop? (root value : Json) : Option Json :=
  value.reference?.bind root.target?

/-- Where a value leads in a number of hops along references. -/
def hops? (root : Json) : Nat → Json → Option Json
  | 0, value => some value
  | n + 1, value => (hop? root value).bind (hops? root n)

/-- A value leads to one that is no reference, in fewer than 16 hops. -/
def IsRead (root value : Json) : Prop :=
  ∃ n final, n < 16 ∧ hops? root n value = some final ∧ final.reference? = none

/-- A value leads to one that leads to itself again. -/
def LeadsAround (root value : Json) : Prop :=
  ∃ n m found, hops? root n value = some found ∧ hops? root (m + 1) found = some found

/-- A value leads to a reference that is not local, or to one that resolves to nothing. -/
def LeadsNowhere (root value : Json) : Prop :=
  ∃ n found reference, hops? root n value = some found ∧ found.reference? = some reference ∧
    ((∀ pointer, reference ≠ "#" ++ pointer) ∨
      ∃ pointer, reference = "#" ++ pointer ∧ root.pointer? pointer = none)

theorem hops?_add (m n : Nat) (value : Json) :
    hops? root (m + n) value = (hops? root m value).bind (hops? root n) := by
  induction m generalizing value with
  | zero => rw [Nat.zero_add, hops?, Option.bind_some]
  | succ m ih =>
      rw [Nat.succ_add, hops?, hops?, Option.bind_assoc]
      exact Option.bind_congr fun next _ => ih next

/-- A value that is no reference leads no further. -/
theorem hops?_of_direct (direct : value.reference? = none) (n : Nat) :
    hops? root (n + 1) value = none := by
  rw [hops?, hop?, direct]
  rfl

theorem target?_eq_none_iff {reference : String} :
    root.target? reference = none ↔
      (∀ pointer, reference ≠ "#" ++ pointer) ∨
        ∃ pointer, reference = "#" ++ pointer ∧ root.pointer? pointer = none := by
  have local_iff (pointer : String) : localPointer? reference = some pointer ↔
      reference = "#" ++ pointer := by
    rw [localPointer?, ← String.toList_inj, String.toList_append]
    split
    · rename_i text isLocal
      rw [isLocal, Option.some.injEq, ← String.toList_inj, String.toList_ofList]
      exact ⟨fun same => same ▸ rfl, fun same => (List.cons.inj same).2⟩
    · rename_i other
      exact iff_of_false nofun fun same => other _ same
  rw [Json.target?, Option.bind_eq_none_iff]
  constructor
  · intro none
    by_cases isLocal : ∃ pointer, reference = "#" ++ pointer
    · rcases isLocal with ⟨pointer, same⟩
      exact .inr ⟨pointer, same, none pointer ((local_iff pointer).2 same)⟩
    · exact .inl fun pointer same => isLocal ⟨pointer, same⟩
  · rintro (foreign | ⟨pointer, same, dangling⟩) pointer' found
    · exact (foreign pointer' ((local_iff pointer').1 found)).elim
    · cases found.symm.trans ((local_iff pointer).2 same)
      exact dangling

/-- A block is followed to a value if the value is reached in time and is no reference. -/
theorem follow?_eq_some_iff {steps : Nat} :
    follow? root steps value = some final ↔
      ∃ n < steps, hops? root n value = some final ∧ final.reference? = none := by
  induction steps generalizing value with
  | zero =>
      constructor
      · intro followed
        cases followed
      · rintro ⟨n, bound, -⟩
        exact (Nat.not_lt_zero n bound).elim
  | succ steps ih =>
      rw [follow?]
      cases isReference : value.reference? with
      | none =>
          -- Without a reference the only chain is the one of no hops.
          constructor
          · intro followed
            cases followed
            exact ⟨0, Nat.succ_pos steps, rfl, isReference⟩
          · rintro ⟨n, -, leads, direct⟩
            cases n with
            | zero => exact leads
            | succ n => cases (hops?_of_direct isReference n).symm.trans leads
      | some reference =>
          have hop : hop? root value = root.target? reference := by
            rw [hop?, isReference, Option.bind_some]
          rw [Option.bind_eq_some_iff]
          constructor
          · rintro ⟨next, isNext, followed⟩
            rcases ih.1 followed with ⟨n, bound, leads, direct⟩
            refine ⟨n + 1, Nat.succ_lt_succ bound, ?_, direct⟩
            rw [hops?, hop, isNext]
            exact leads
          · rintro ⟨n, bound, leads, direct⟩
            cases n with
            | zero =>
                cases leads
                cases isReference.symm.trans direct
            | succ n =>
                rw [hops?, hop] at leads
                rcases Option.bind_eq_some_iff.1 leads with ⟨next, isNext, leads⟩
                exact ⟨next, isNext, ih.2 ⟨n, Nat.lt_of_succ_lt_succ bound, leads, direct⟩⟩

/-- A block is followed to its end if and only if it is read. -/
theorem follow?_isSome_iff :
    (∃ final, follow? root referenceSteps value = some final) ↔ IsRead root value := by
  simp only [follow?_eq_some_iff, referenceSteps, IsRead]
  constructor
  · rintro ⟨final, n, bound, leads, direct⟩
    exact ⟨n, final, bound, leads, direct⟩
  · rintro ⟨n, final, bound, leads, direct⟩
    exact ⟨final, n, bound, leads, direct⟩

/-! ## The fates of a chain -/

/-- What is reached leads on where the whole chain leads. -/
theorem hops?_of_le {m n : Nat} {found : Json} (le : m ≤ n)
    (leads : hops? root m value = some found) :
    hops? root n value = hops? root (n - m) found := by
  calc hops? root n value
      = hops? root (m + (n - m)) value := by rw [Nat.add_sub_cancel' le]
    _ = (hops? root m value).bind (hops? root (n - m)) := hops?_add m (n - m) value
    _ = hops? root (n - m) found := by rw [leads, Option.bind_some]

/-- Behind a value that is no reference there is nothing. -/
theorem hops?_eq_none_of_lt {m n : Nat} (lt : m < n) (leads : hops? root m value = some final)
    (direct : final.reference? = none) : hops? root n value = none := by
  rcases Nat.exists_eq_add_of_lt lt with ⟨k, rfl⟩
  rw [hops?_of_le (Nat.le_of_lt lt) leads, Nat.add_assoc, Nat.add_sub_cancel_left]
  exact hops?_of_direct direct k

/-- A chain that goes around has no end. -/
theorem exists_hops?_of_leadsAround (around : LeadsAround root value) (n : Nat) :
    ∃ found, hops? root n value = some found := by
  rcases around with ⟨start, m, found, leads, back⟩
  have rounds (k : Nat) : hops? root ((m + 1) * k) found = some found := by
    induction k with
    | zero => rfl
    | succ k ih => rw [Nat.mul_succ, hops?_add, ih, Option.bind_some, back]
  -- After `n` rounds at least `n` hops are made, so the first `n` of them lead somewhere.
  have far : hops? root (start + (m + 1) * n) value = some found := by
    rw [hops?_add, leads, Option.bind_some, rounds]
  have enough : n ≤ start + (m + 1) * n :=
    Nat.le_trans (Nat.le_mul_of_pos_left n (Nat.succ_pos m)) (Nat.le_add_left _ start)
  cases reached : hops? root n value with
  | some other => exact ⟨other, rfl⟩
  | none =>
      rw [← Nat.add_sub_cancel' enough, hops?_add, reached] at far
      cases far

/-- A chain that goes around, breaks off or takes 16 hops or more is not read. -/
theorem not_isRead (fate : LeadsAround root value ∨ LeadsNowhere root value ∨
    ∃ far, hops? root 16 value = some far) : ¬IsRead root value := by
  rintro ⟨n, final, bound, leads, direct⟩
  have short : hops? root 16 value = none := hops?_eq_none_of_lt bound leads direct
  rcases fate with around | ⟨m, found, reference, leads', isReference, broken⟩ | ⟨far, long⟩
  · rcases exists_hops?_of_leadsAround around 16 with ⟨far, long⟩
    cases short.symm.trans long
  · have noTarget := target?_eq_none_iff.2 broken
    rcases Nat.lt_trichotomy m n with earlier | rfl | later
    · -- The hop behind the broken reference leads nowhere.
      have none : hops? root n value = none := by
        rcases Nat.exists_eq_add_of_lt earlier with ⟨k, rfl⟩
        rw [hops?_of_le (Nat.le_of_lt earlier) leads', Nat.add_assoc, Nat.add_sub_cancel_left,
          hops?, hop?, isReference, Option.bind_some, noTarget, Option.bind_none]
      cases none.symm.trans leads
    · cases leads.symm.trans leads'
      cases direct.symm.trans isReference
    · cases (hops?_eq_none_of_lt later leads direct).symm.trans leads'
  · cases short.symm.trans long

/-- In a number of steps a chain ends, breaks off or leads on. -/
theorem ends_or (steps : Nat) (value : Json) :
    (∃ n final, n < steps ∧ hops? root n value = some final ∧ final.reference? = none) ∨
      LeadsNowhere root value ∨ ∃ far, hops? root steps value = some far := by
  induction steps with
  | zero => exact .inr (.inr ⟨value, rfl⟩)
  | succ steps ih =>
      rcases ih with ⟨n, final, bound, leads, direct⟩ | nowhere | ⟨far, leads⟩
      · exact .inl ⟨n, final, Nat.lt_succ_of_lt bound, leads, direct⟩
      · exact .inr (.inl nowhere)
      · cases isReference : far.reference? with
        | none => exact .inl ⟨steps, far, Nat.lt_succ_self steps, leads, isReference⟩
        | some reference =>
            cases target : root.target? reference with
            | none =>
                exact .inr (.inl
                  ⟨steps, far, reference, leads, isReference, target?_eq_none_iff.1 target⟩)
            | some next =>
                refine .inr (.inr ⟨next, ?_⟩)
                rw [hops?_add, leads, Option.bind_some, hops?, hop?, isReference, Option.bind_some,
                  target]
                rfl

/-- A value is read, or its chain breaks off or takes 16 hops or more. -/
theorem isRead_or (root value : Json) :
    IsRead root value ∨ LeadsNowhere root value ∨ ∃ far, hops? root 16 value = some far :=
  ends_or 16 value

/-! ## Blocks -/

theorem block_of_isRead {n : Nat} (present : props.get? name = some schema) (bound : n < 16)
    (leads : hops? root n schema = some final) (direct : final.reference? = none) :
    block root props path name = .ok (.ofValue final) := by
  have followed : follow? root referenceSteps schema = some final :=
    follow?_eq_some_iff.2 ⟨n, bound, leads, direct⟩
  rw [block, present]
  dsimp only
  rw [followed]

theorem block_of_not_isRead (present : props.get? name = some schema)
    (unread : ¬IsRead root schema) :
    block root props path name = .error (.shapeAt (propertyPath path name) schema) := by
  have lost : follow? root referenceSteps schema = none := by
    cases followed : follow? root referenceSteps schema with
    | none => rfl
    | some final => exact (unread (follow?_isSome_iff.1 ⟨final, followed⟩)).elim
  rw [block, present]
  dsimp only
  rw [lost]

/-- A block that is read may stand in its place as what it leads to. -/
theorem block_insert {n : Nat} (present : props.get? name = some schema) (bound : n < 16)
    (leads : hops? root n schema = some final) (direct : final.reference? = none)
    (other : String) :
    block root (props.insert name final) path other = block root props path other := by
  by_cases same : name = other
  · subst same
    have stored : (props.insert name final).get? name = some final := by
      rw [Entries.get?_insert, if_pos rfl]
    rw [block_of_isRead present bound leads direct,
      block_of_isRead stored (Nat.succ_pos 15) rfl direct]
  · rw [block, block, Entries.get?_insert, if_neg same]

/-! ## Records -/

/-- The members of a flat record do not depend on the properties that the record had. -/
theorem flatMembers_insert {old : Json} (present : members.get? "properties" = some old)
    (new : Json) (flat : Entries Json) (names : List String) (isOpen : Bool) :
    flatMembers (members.insert "properties" new) flat names isOpen =
      flatMembers members flat names isOpen := by
  rw [flatMembers, flatMembers]
  congr 2
  induction members with
  | nil => cases present
  | cons entry rest ih =>
      rcases entry with ⟨key, value⟩
      rw [Entries.get?_cons] at present
      rw [Entries.insert]
      split at present
      · rename_i same
        subst same
        rw [if_pos rfl]
        simp
      · rename_i other
        have tail := ih present
        rw [if_neg other]
        simp only [List.filter_cons]
        split
        · rw [List.map_cons, List.map_cons, tail]
        · exact tail

/-- What a record requires does not depend on its properties. -/
theorem required_insert (members : Entries Json) (new : Json) :
    required (members.insert "properties" new) = required members := by
  rw [required, required, Entries.get?_insert, if_neg (by decide)]

theorem properties_insert (members props : Entries Json) :
    properties (members.insert "properties" (.object props)) = some props := by
  rw [properties, Entries.get?_insert, if_pos rfl]
  rfl

/-- A record in which one block is replaced by what it leads to has the same flat form. -/
theorem flattenBlocks_insert {n : Nat} (declared : properties members = some props)
    (isBlock : name ∈ [attributesBlock, relationshipsBlock])
    (present : props.get? name = some schema)
    (bound : n < 16) (leads : hops? root n schema = some final) (direct : final.reference? = none) :
    flattenBlocks root (members.insert "properties" (.object (props.insert name final)))
        (props.insert name final) path =
      flattenBlocks root members props path := by
  have other (key : String) (kept : key ∈ ["id", "type", "meta"]) :
      (props.insert name final).get? key = props.get? key := by
    have apart : ∀ block ∈ [attributesBlock, relationshipsBlock], ∀ key ∈ ["id", "type", "meta"],
        block ≠ key := by decide
    rw [Entries.get?_insert, if_neg (apart name isBlock key kept)]
  have kept : select (props.insert name final) ["id", "type"] = select props ["id", "type"] := by
    simp only [select, List.filterMap_cons, other "id" (by decide), other "type" (by decide),
      List.filterMap_nil]
  have hasMeta : (props.insert name final).contains "meta" = props.contains "meta" := by
    rw [Entries.contains, Entries.contains, other "meta" (by decide)]
  have old := get?_of_properties declared
  simp only [flattenBlocks, block_insert present bound leads direct, kept, hasMeta,
    other "meta" (by decide), required_insert, flatMembers_insert old]

/-- A record of which one block leads, along less than 16 references, to a value that is no
reference is flattened as if this value stood in the place of the block, with the same warnings or
the same error.  A block whose chain goes around, breaks off or takes 16 hops or more is the error
at this block, unless the attributes fail before it.  One of both is the case. -/
theorem flattenRecord_of_hops (declared : properties members = some props)
    (isBlock : name ∈ [attributesBlock, relationshipsBlock])
    (present : props.get? name = some schema) :
    (∀ n final, n < 16 → hops? root n schema = some final → final.reference? = none →
      flattenRecord root members path =
        flattenRecord root (members.insert "properties" (.object (props.insert name final))) path) ∧
    ((LeadsAround root schema ∨ LeadsNowhere root schema ∨
        ∃ far, hops? root 16 schema = some far) →
      (name = relationshipsBlock →
        ∀ other, props.get? attributesBlock = some other → IsRead root other) →
      (flattenRecord root members path).result =
        .error (.shapeAt (propertyPath path name) schema)) ∧
    (IsRead root schema ∨ LeadsNowhere root schema ∨ ∃ far, hops? root 16 schema = some far) := by
  have hasBlock {props : Entries Json} {value : Json} (present : props.get? name = some value) :
      (props.contains attributesBlock || props.contains relationshipsBlock) = true := by
    rw [Entries.contains, Entries.contains, Bool.or_eq_true]
    rcases List.mem_pair.1 isBlock with rfl | rfl
    · exact .inl (by rw [present]; rfl)
    · exact .inr (by rw [present]; rfl)
  refine ⟨?inline, ?fail, isRead_or root schema⟩
  case inline =>
      intro n final bound leads direct
      have stored : (props.insert name final).get? name = some final := by
        rw [Entries.get?_insert, if_pos rfl]
      rw [flattenRecord_of_block declared (hasBlock present),
        flattenRecord_of_block (properties_insert members _) (hasBlock stored),
        flattenBlocks_insert declared isBlock present bound leads direct]
  case fail =>
      intro fate readAttributes
      have failed : (Checked.ofExcept (block root props path name)).result = _ :=
        block_of_not_isRead present (not_isRead fate)
      rw [flattenRecord_of_block declared (hasBlock present), flattenBlocks]
      rcases List.mem_pair.1 isBlock with rfl | rfl
      · exact Checked.result_bind_of_error failed
      · -- The attributes are absent or read, so that the relationships are looked at.
        have attributes : ∃ found,
            (Checked.ofExcept (block root props path attributesBlock)).result = .ok found := by
          cases found : props.get? attributesBlock with
          | none => exact ⟨.absent, by rw [Checked.result_ofExcept, block, found]⟩
          | some other =>
              rcases readAttributes rfl other found with ⟨n, final, bound, leads, direct⟩
              exact ⟨_, block_of_isRead found bound leads direct⟩
        rcases attributes with ⟨found, read⟩
        rw [Checked.result_bind_of_ok read, Checked.result_bind_of_ok (Checked.result_liftM _)]
        exact Checked.result_bind_of_error failed

/-! ### A chain of 16 references -/

/-- A reference to a numbered member of the document. -/
def numbered (i : Nat) : Json :=
  .object [("$ref", .string ("#/" ++ toString i))]

/-- What the last reference of the chain leads to. -/
def chainEnd : Json :=
  .object [("properties", .object [("title", .object [])])]

/-- Fifteen references, each to the next one, and the end of the chain. -/
def chainRoot : Json :=
  .object ((List.range' 1 15).map (fun i => (toString i, numbered (i + 1))) ++ [("16", chainEnd)])

/-- The properties of a record with a block 15 hops away from the end and one 16 hops away. -/
def chainProperties : Entries Json :=
  [("attributes", numbered 2), ("relationships", numbered 1)]

/-- The record with these properties. -/
def chainRecord : Entries Json :=
  [("properties", .object chainProperties)]

/-- After 15 hops a block is read as what it leads to; after 16 hops it is an error, although it
leads to the same value. -/
theorem flattenRecord_chainRecord :
    properties chainRecord = some chainProperties ∧
      (hops? chainRoot 15 (numbered 2) = some chainEnd ∧
        hops? chainRoot 16 (numbered 1) = some chainEnd ∧ chainEnd.reference? = none) ∧
      flattenRecord chainRoot chainRecord "#" =
        flattenRecord chainRoot
          (Entries.insert chainRecord "properties"
            (.object (chainProperties.insert attributesBlock chainEnd))) "#" ∧
      (flattenRecord chainRoot chainRecord "#").result =
        .error (.shapeAt "#/properties/relationships" (numbered 1)) := by
  have short : hops? chainRoot 15 (numbered 2) = some chainEnd := by decide +kernel
  have long : hops? chainRoot 16 (numbered 1) = some chainEnd := by decide +kernel
  have direct : chainEnd.reference? = none := by decide +kernel
  have bound : 15 < 16 := by decide
  have readAttributes (other : Json) (found : chainProperties.get? attributesBlock = some other) :
      IsRead chainRoot other := by
    cases found
    exact ⟨15, chainEnd, bound, short, direct⟩
  have declared : properties chainRecord = some chainProperties := rfl
  have inline : flattenRecord chainRoot chainRecord "#" =
      flattenRecord chainRoot
        (Entries.insert chainRecord "properties"
          (.object (chainProperties.insert attributesBlock chainEnd))) "#" :=
    (flattenRecord_of_hops declared (by decide) rfl).1 15 chainEnd bound short direct
  have failed : (flattenRecord chainRoot chainRecord "#").result =
      .error (.shapeAt (propertyPath "#" relationshipsBlock) (numbered 1)) :=
    (flattenRecord_of_hops declared (by decide) rfl).2.1 (.inr (.inr ⟨chainEnd, long⟩))
      fun _ => readAttributes
  exact ⟨declared, ⟨short, long, direct⟩, inline, failed⟩

end HyperSchema.Schema
