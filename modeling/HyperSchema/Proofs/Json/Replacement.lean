import HyperSchema.Proofs.Entries
import HyperSchema.Proofs.Json.Below

/-!
# Replacement — what another value at an address changes

A value at an address is replaced by another one.  This file shows what stands where afterwards:

* `Json.Pointer.index?_eq_some_iff`: an index has one spelling;
* `Json.Pointer.ofSegments`, the text of a pointer, and `Json.Pointer.segments?_ofSegments`: it is
  read back segment by segment;
* `Json.outline`, a value without what stands below it: the names of an object in their order, the
  number of items of an array;
* `Json.Apart`, two addresses of which none leads through the other;
* `Json.at?_replaceAt?`, `Json.at?_replaceAt?_of_apart` and `Json.outline_at?_replaceAt?`: the other
  value stands at the address, nothing changes apart from it, and no outline changes above it;
* `Json.replaceAt?_of_at?`: what stands at an address can be put there again.
-/

namespace HyperSchema.Json

namespace Pointer

/-! ## Indices have one spelling -/

theorem toDigits_of_isDigit {c : Char} (isDigit : c.isDigit = true) :
    Nat.toDigits 10 (c.toNat - '0'.toNat) = [c] := by
  have bounds : 48 ≤ c.toNat ∧ c.toNat ≤ 57 := Char.isDigit_iff_toNat.1 isDigit
  have small : c.toNat - '0'.toNat < 10 := by
    show c.toNat - 48 < 10
    omega
  have spelled : Nat.digitChar (c.toNat - '0'.toNat) = c := by
    refine Char.toNat_inj.1 ((Nat.toNat_digitChar_of_lt_ten small).trans ?_)
    show 48 + (c.toNat - 48) = c.toNat
    omega
  rw [Nat.toDigits_of_lt_base small, spelled]

/-- Digits that are read behind a number are its last digits. -/
theorem toDigits_append_digits {digits : List Char} (areDigits : ∀ c ∈ digits, c.isDigit = true)
    {front : Nat} (positive : 0 < front) :
    Nat.toDigits 10 front ++ digits =
      Nat.toDigits 10 (digits.foldl (fun n c => n * 10 + (c.toNat - '0'.toNat)) front) := by
  induction digits generalizing front with
  | nil => exact List.append_nil _
  | cons c rest ih =>
      rcases List.forall_mem_cons.1 areDigits with ⟨isDigit, others⟩
      have bounds : 48 ≤ c.toNat ∧ c.toNat ≤ 57 := Char.isDigit_iff_toNat.1 isDigit
      have small : c.toNat - '0'.toNat < 10 := by
        show c.toNat - 48 < 10
        omega
      have joined := Nat.toDigits_append_toDigits (by omega) positive small
      calc
        Nat.toDigits 10 front ++ c :: rest = (Nat.toDigits 10 front ++ [c]) ++ rest := by simp
        _ = Nat.toDigits 10 (front * 10 + (c.toNat - '0'.toNat)) ++ rest := by
            rw [← toDigits_of_isDigit isDigit, joined, Nat.mul_comm]
        _ = _ := ih others (by omega)

/-- An index has one spelling. -/
theorem index?_eq_some_iff {segment : String} {i : Nat} :
    index? segment = some i ↔ segment = toString i := by
  refine ⟨fun read => ?_, fun same => same ▸ index?_toString i⟩
  rw [index?] at read
  split at read
  · cases read
  rename_i sound
  rw [← String.toList_inj, toList_toString]
  -- A zero stands in front only if it is alone; every other first digit is a positive number.
  cases digits : segment.toList with
  | nil => simp [digits] at sound
  | cons c rest =>
      rw [digits] at sound read
      simp only [List.isEmpty_cons, Bool.false_or, Bool.or_eq_true, Bool.not_eq_true', not_or,
        Bool.not_eq_false, List.all_eq_true, Bool.and_eq_true, not_and, List.head?_cons,
        beq_iff_eq, bne_iff_ne, Option.some.injEq, ne_eq,
        Decidable.not_not] at sound
      rcases List.forall_mem_cons.1 sound.1 with ⟨isDigit, others⟩
      have isNumber : rest.foldl (fun n c => n * 10 + (c.toNat - '0'.toNat)) (c.toNat - '0'.toNat) =
          i := by
        simpa using read
      rcases Nat.eq_zero_or_pos (c.toNat - '0'.toNat) with isZero | positive
      · have zero : c = '0' := by
          have spelled := toDigits_of_isDigit isDigit
          rw [isZero] at spelled
          exact (List.cons.inj spelled).1.symm
        have single : rest = [] := List.length_eq_zero_iff.1 (Nat.succ.inj (sound.2 zero))
        subst single
        exact isNumber ▸ (toDigits_of_isDigit isDigit).symm
      · rw [← isNumber, ← toDigits_append_digits others positive, toDigits_of_isDigit isDigit]
        rfl

/-! ## Pointers as texts -/

/-- The text of a pointer, of which no segment needs an escape. -/
def ofSegments : List String → String
  | [] => ""
  | segment :: rest => "/" ++ segment ++ ofSegments rest

/-- A name in front of a pointer is one more segment. -/
theorem segments?_cons {text : List Char} {segments : List String} {name : String}
    (read : segments? text = some segments) (plain : IsPlain name) :
    segments? ('/' :: (name.toList ++ text)) = some (name :: segments) := by
  unfold segments? at read
  split at read
  · cases read
    rw [List.append_nil, segments?, Text.splitOn_of_free plain.1]
    exact congrArg (fun name => some [name]) (decodeSegment_of_free plain.2)
  · cases read
    rw [segments?, Text.splitOn_append_cons plain.1, List.map_cons]
    exact congrArg (fun name => some (name :: _)) (decodeSegment_of_free plain.2)
  · cases read

/-- A pointer is read back segment by segment. -/
theorem segments?_ofSegments {segments : List String} (plain : ∀ name ∈ segments, IsPlain name) :
    segments? (ofSegments segments).toList = some segments := by
  induction segments with
  | nil => rfl
  | cons name rest ih =>
      rcases List.forall_mem_cons.1 plain with ⟨first, others⟩
      rw [ofSegments, String.toList_append, String.toList_append, List.append_assoc]
      exact segments?_cons (ih others) first

end Pointer

/-! ## Values without what stands below them -/

/-- A value with `null` in place of all that stands below it: the names of an object in their order,
the number of items of an array, and every other value itself. -/
def outline : Json → Json
  | object members => .object (members.map fun entry => (entry.1, .null))
  | array items => .array (items.map fun _ => .null)
  | value => value

theorem outline_insert {members : Entries Json} {name : String} {old : Json}
    (found : members.get? name = some old) (new : Json) :
    (object (members.insert name new)).outline = (object members).outline := by
  have known : name ∈ members.keys := List.mem_map.2 ⟨_, Entries.mem_of_get? found, rfl⟩
  have blank (entries : Entries Json) :
      (object entries).outline = .object (entries.keys.map fun name => (name, .null)) := by
    rw [outline, Entries.keys, List.map_map]
    rfl
  rw [blank, blank, Entries.keys_insert, if_pos known]

theorem outline_set (items : List Json) (i : Nat) (new : Json) :
    (array (items.set i new)).outline = (array items).outline := by
  simp only [outline, List.map_const', List.length_set]

/-! ## Replacing below one name -/

variable {value value' child child' new : Json} {name : String} {segments other : List String}

/-- Below a name, the value under the name is replaced by what becomes of it. -/
theorem replaceAt?_cons (found : value.child? name = some child) (new : Json) :
    value.replaceAt? (name :: segments) new =
      (child.replaceAt? segments new).bind fun child' => value.replaceAt? [name] child' := by
  simp only [replaceAt?, found]
  rfl

theorem replaceAt?_member {members : Entries Json} (found : members.get? name = some child)
    (new : Json) :
    (object members).replaceAt? [name] new = some (.object (members.insert name new)) := by
  simp [replaceAt?, found]

theorem replaceAt?_item (front : List Json) (item : Json) (back : List Json) (new : Json) :
    (array (front ++ item :: back)).replaceAt? [toString front.length] new =
      some (.array (front ++ new :: back)) := by
  have stands : (front ++ item :: back)[front.length]? = some item := by simp
  rw [replaceAt?, child?_toString stands]
  show (Pointer.index? (toString front.length)).map _ = _
  rw [Pointer.index?_toString]
  simp

/-- What replacing a value under a name does: it stands under the name, all others stand where they
stood, and no name or item comes or goes. -/
theorem of_replaceAt?_singleton (put : value.replaceAt? [name] new = some value') :
    value'.child? name = some new ∧ (∀ other ≠ name, value'.child? other = value.child? other) ∧
      value'.outline = value.outline := by
  rcases Option.bind_eq_some_iff.1 put with ⟨old, found, put⟩
  cases value with
  | object members =>
      cases put
      refine ⟨?_, ?_, outline_insert found new⟩
      · rw [child?_object, Entries.get?_insert, if_pos rfl]
      · intro other different
        rw [child?_object, Entries.get?_insert, if_neg (Ne.symm different), child?_object]
  | array items =>
      rcases Option.bind_eq_some_iff.1 found with ⟨i, read, stands⟩
      have spelled := Pointer.index?_eq_some_iff.1 read
      have replaced : value' = .array (items.set i new) := by
        simpa [replaceAt?, read] using put.symm
      subst replaced
      refine ⟨?_, ?_, outline_set items i new⟩
      · rw [child?_array, read]
        exact List.getElem?_set_self (List.getElem?_eq_some_iff.1 stands).1
      · -- Another segment spells another index.
        intro other different
        rw [child?_array, child?_array]
        cases isIndex : Pointer.index? other with
        | none => rfl
        | some j =>
            have elsewhere : i ≠ j := by
              rintro rfl
              exact different ((Pointer.index?_eq_some_iff.1 isIndex).trans spelled.symm)
            exact List.getElem?_set_ne elsewhere
  | _ => cases found

/-- Of two values under one name, the second one stays. -/
theorem replaceAt?_replaceAt?_singleton (put : value.replaceAt? [name] child = some value')
    (new : Json) : value'.replaceAt? [name] new = value.replaceAt? [name] new := by
  have stands := (of_replaceAt?_singleton put).1
  rcases Option.bind_eq_some_iff.1 put with ⟨old, found, put⟩
  cases value with
  | object members =>
      cases put
      rw [replaceAt?_member stands, replaceAt?_member found, Entries.insert_insert]
  | array items =>
      rcases Option.bind_eq_some_iff.1 found with ⟨i, read, present⟩
      have replaced : value' = .array (items.set i child) := by
        simpa [replaceAt?, read] using put.symm
      subst replaced
      have inside := (List.getElem?_eq_some_iff.1 present).1
      simp [replaceAt?, read, inside]
  | _ => cases found

/-- What stands under a name can be replaced. -/
theorem exists_replaceAt?_singleton (found : value.child? name = some child) (new : Json) :
    ∃ value', value.replaceAt? [name] new = some value' := by
  cases value with
  | object members => exact ⟨_, replaceAt?_member found new⟩
  | array items =>
      rcases Option.bind_eq_some_iff.1 found with ⟨i, read, stands⟩
      have inside := (List.getElem?_eq_some_iff.1 stands).1
      exact ⟨.array (items.set i new), by simp [replaceAt?, read, inside]⟩
  | _ => cases found

/-- What stands under a name can be put there again. -/
theorem replaceAt?_singleton_of_child? (found : value.child? name = some child) :
    value.replaceAt? [name] child = some value := by
  cases value with
  | object members =>
      rw [replaceAt?_member found, Entries.insert_eq_self found]
  | array items =>
      rcases Option.bind_eq_some_iff.1 found with ⟨i, read, stands⟩
      rcases List.getElem?_eq_some_iff.1 stands with ⟨inside, rfl⟩
      simp [replaceAt?, read, inside]
  | _ => cases found

/-! ## Replacing at an address -/

/-- Below a name something was replaced: in the value under the name, which stands there now. -/
theorem exists_child_of_replaceAt? (put : value.replaceAt? (name :: segments) new = some value') :
    ∃ child child', value.child? name = some child ∧
      child.replaceAt? segments new = some child' ∧
      value.replaceAt? [name] child' = some value' := by
  rcases Option.bind_eq_some_iff.1 put with ⟨child, found, -⟩
  rw [replaceAt?_cons found] at put
  rcases Option.bind_eq_some_iff.1 put with ⟨child', replaced, put⟩
  exact ⟨child, child', found, replaced, put⟩

/-- The other value stands at the address. -/
theorem at?_replaceAt? (put : value.replaceAt? segments new = some value') :
    value'.at? segments = some new := by
  induction segments generalizing value value' with
  | nil =>
      cases put
      rfl
  | cons name rest ih =>
      rcases exists_child_of_replaceAt? put with ⟨child, child', -, replaced, put⟩
      rw [at?, (of_replaceAt?_singleton put).1]
      exact ih replaced

/-- Two addresses of which none leads through the other. -/
def Apart (first second : List String) : Prop :=
  ¬ first <+: second ∧ ¬ second <+: first

instance (first second : List String) : Decidable (Apart first second) :=
  inferInstanceAs (Decidable (_ ∧ _))

theorem Apart.symm {first second : List String} (apart : Apart first second) :
    Apart second first :=
  And.symm apart

theorem apart_cons_iff {first second : List String} :
    Apart (name :: first) (name :: second) ↔ Apart first second := by
  simp only [Apart, List.cons_prefix_cons, true_and]

theorem apart_of_head_ne {name' : String} (different : name ≠ name') (first second : List String) :
    Apart (name :: first) (name' :: second) :=
  ⟨fun leads => different (List.cons_prefix_cons.1 leads).1,
    fun leads => different (List.cons_prefix_cons.1 leads).1.symm⟩

/-- Nothing changes apart from the address. -/
theorem at?_replaceAt?_of_apart (put : value.replaceAt? segments new = some value')
    (apart : Apart segments other) : value'.at? other = value.at? other := by
  induction segments generalizing value value' other with
  | nil => exact (apart.1 List.nil_prefix).elim
  | cons name rest ih =>
      rcases exists_child_of_replaceAt? put with ⟨child, child', found, replaced, put⟩
      rcases of_replaceAt?_singleton put with ⟨stands, others, -⟩
      cases other with
      | nil => exact (apart.2 List.nil_prefix).elim
      | cons name' rest' =>
          rw [at?, at?]
          by_cases same : name' = name
          · subst same
            rw [stands, found]
            exact ih replaced (apart_cons_iff.1 apart)
          · rw [others name' same]

/-- No outline changes but at the address and below it. -/
theorem outline_at?_replaceAt? (put : value.replaceAt? segments new = some value')
    (outside : ¬ segments <+: other) :
    (value'.at? other).map outline = (value.at? other).map outline := by
  induction segments generalizing value value' other with
  | nil => exact (outside List.nil_prefix).elim
  | cons name rest ih =>
      rcases exists_child_of_replaceAt? put with ⟨child, child', found, replaced, put⟩
      rcases of_replaceAt?_singleton put with ⟨stands, others, sameOutline⟩
      cases other with
      | nil => exact congrArg some sameOutline
      | cons name' rest' =>
          rw [at?, at?]
          by_cases same : name' = name
          · subst same
            rw [stands, found]
            exact ih replaced fun leads => outside (List.cons_prefix_cons.2 ⟨rfl, leads⟩)
          · rw [others name' same]

/-- What stands at an address can be put there again. -/
theorem replaceAt?_of_at? (stands : value.at? segments = some child) :
    value.replaceAt? segments child = some value := by
  induction segments generalizing value with
  | nil => exact congrArg some (Option.some.inj stands).symm
  | cons name rest ih =>
      rcases Option.bind_eq_some_iff.1 stands with ⟨inner, found, stands⟩
      rw [replaceAt?_cons found, ih stands]
      exact replaceAt?_singleton_of_child? found

end HyperSchema.Json
