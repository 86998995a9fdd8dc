import HyperSchema.Proofs.Json.Part
import HyperSchema.Proofs.Text.Parts

/-!
# Below — addresses that grow with the way into a value

An address is put together from the name or the index of each step.  This file defines:

* `Json.Pointer.segments?_append`, the segments of a pointer with a name behind it, and
  `Json.Pointer.index?_toString`, the index that a number spells;
* `Json.IsPlain`, the names that need no escape;
* `Json.Below`, what stands at an address if another value stands at its beginning;
* `Json.pointer?_of_below`: an address that starts at the root is `#` and a pointer to what stands
  there.
-/

namespace HyperSchema.Json

namespace Pointer

/-! ## Segments -/

theorem restoreSlash_of_free {segment : List Char} (free : '~' ∉ segment) :
    restoreSlash segment = segment := by
  induction segment with
  | nil => rfl
  | cons c rest ih =>
      rw [List.mem_cons, not_or] at free
      rw [restoreSlash, ih free.2]
      rintro others ⟨⟩ -
      exact free.1 rfl

theorem restoreTilde_of_free {segment : List Char} (free : '~' ∉ segment) :
    restoreTilde segment = segment := by
  induction segment with
  | nil => rfl
  | cons c rest ih =>
      rw [List.mem_cons, not_or] at free
      rw [restoreTilde, ih free.2]
      rintro others ⟨⟩ -
      exact free.1 rfl

theorem decodeSegment_of_free {segment : String} (free : '~' ∉ segment.toList) :
    decodeSegment segment.toList = segment := by
  rw [decodeSegment, restoreSlash_of_free free, restoreTilde_of_free free, String.ofList_toList]

/-- A name behind a pointer is one more segment. -/
theorem segments?_append {text : List Char} {segments : List String} {name : String}
    (h : segments? text = some segments) (noSlash : '/' ∉ name.toList)
    (noTilde : '~' ∉ name.toList) :
    segments? (text ++ '/' :: name.toList) = some (segments ++ [name]) := by
  unfold segments? at h
  split at h
  · cases h
    rw [List.nil_append, segments?, Text.splitOn_of_free noSlash]
    exact congrArg (fun name => some [name]) (decodeSegment_of_free noTilde)
  · rename_i rest
    cases h
    rw [List.cons_append, segments?, Text.splitOn_append_last noSlash, List.map_append]
    exact congrArg (fun name => some (_ ++ [name])) (decodeSegment_of_free noTilde)
  · cases h

/-! ## Indices -/

theorem toList_toString (i : Nat) : (toString i).toList = Nat.toDigits 10 i :=
  Nat.toList_repr

/-- Only zero is spelled with a zero in front. -/
theorem head?_toDigits {i : Nat} (h : (Nat.toDigits 10 i).head? = some '0') : i = 0 := by
  induction i using Nat.strongRecOn with
  | _ i ih =>
      rw [Nat.toDigits_eq_if (by omega)] at h
      split at h
      · rename_i small
        have digit : ∀ n < 10, Nat.digitChar n = '0' → n = 0 := by decide
        exact digit i small (Option.some.inj h)
      · rename_i large
        have front : (Nat.toDigits 10 (i / 10)).head? = some '0' := by
          rwa [List.head?_append, Option.or_of_isSome (by simp [Nat.toDigits_ne_nil])] at h
        have := ih (i / 10) (by omega) front
        omega

/-- The index that the spelling of a number stands for. -/
theorem index?_toString (i : Nat) : index? (toString i) = some i := by
  have digits : (Nat.toDigits 10 i).all Char.isDigit = true :=
    List.all_eq_true.2 fun c mem => Nat.isDigit_of_mem_toDigits (by omega) (by omega) mem
  have nonempty : (Nat.toDigits 10 i).isEmpty = false :=
    List.isEmpty_eq_false_iff.2 Nat.toDigits_ne_nil
  have noZero :
      ((Nat.toDigits 10 i).head? == some '0' && (Nat.toDigits 10 i).length != 1) = false := by
    rw [Bool.and_eq_false_iff]
    by_cases front : (Nat.toDigits 10 i).head? = some '0'
    · refine .inr ?_
      rw [head?_toDigits front]
      rfl
    · exact .inl (beq_eq_false_iff_ne.2 front)
  -- The digits are read back from the left, as they were written.
  have value := Nat.ofDigitChars_toDigits (b := 10) (n := i) (by omega) (by omega)
  rw [Nat.ofDigitChars] at value
  rw [index?, toList_toString, digits, nonempty, noZero]
  simpa [Nat.mul_comm] using value

end Pointer

/-! ## Values below others -/

/-- A name that stands for itself in a pointer. -/
def IsPlain (name : String) : Prop :=
  '/' ∉ name.toList ∧ '~' ∉ name.toList

instance (name : String) : Decidable (IsPlain name) :=
  inferInstanceAs (Decidable (_ ∧ _))

theorem isPlain_toString (i : Nat) : IsPlain (toString i) := by
  rw [IsPlain, Pointer.toList_toString]
  constructor <;> intro mem <;>
    exact absurd (Nat.isDigit_of_mem_toDigits (by omega) (by omega) mem) (by decide)

/-- What stands at an address, if a value stands at the address with which this one begins. -/
inductive Below (path : String) (value : Json) : String → Json → Prop where
  | here : Below path value path value
  | step {path' name : String} {value' child : Json} :
      Below path value path' value' → value'.child? name = some child → IsPlain name →
        Below path value (path' ++ "/" ++ name) child

variable {path path' path'' name : String} {value value' value'' child root node : Json}

theorem Below.trans (first : Below path value path' value')
    (second : Below path' value' path'' value'') : Below path value path'' value'' := by
  induction second with
  | here => exact first
  | step _ found plain ih => exact ih.step found plain

theorem below_member {members : Entries Json} (found : members.get? name = some child)
    (plain : IsPlain name) : Below path (.object members) (path ++ "/" ++ name) child :=
  .step .here found plain

/-- One step, of which the name stands behind a slash. -/
theorem below_named {members : Entries Json} {word : String} (isWord : word = "/" ++ name)
    (found : members.get? name = some child) (plain : IsPlain name) :
    Below path (.object members) (path ++ word) child := by
  rw [isWord, ← String.append_assoc]
  exact below_member found plain

theorem child?_toString {items : List Json} {i : Nat} (found : items[i]? = some child) :
    (array items).child? (toString i) = some child := by
  rw [child?, Pointer.index?_toString]
  exact found

/-- Two steps, of which the first is a name that stands between slashes. -/
theorem below_through {members : Entries Json} {first between : String} {inner : Json}
    (isBetween : between = "/" ++ first ++ "/") (plainFirst : IsPlain first)
    (found : members.get? first = some inner) (found' : inner.child? name = some child)
    (plain : IsPlain name) : Below path (.object members) (path ++ between ++ name) child := by
  have address : path ++ between ++ name = path ++ "/" ++ first ++ "/" ++ name := by
    rw [isBetween]
    simp only [String.append_assoc]
  rw [address]
  exact (below_member found plainFirst).step found' plain

/-- What stands behind two lists of segments stands behind the second one from where the first one
leads. -/
theorem at?_append (value : Json) (front back : List String) :
    value.at? (front ++ back) = (value.at? front).bind fun inner => inner.at? back := by
  induction front generalizing value with
  | nil => rfl
  | cons segment rest ih =>
      rw [List.cons_append, at?, at?]
      cases found : value.child? segment with
      | none => rfl
      | some inner => exact ih inner

/-- An address that starts at the root is `#` and a pointer to what stands there. -/
theorem pointer?_of_below (h : Below "#" root path node) :
    ∃ pointer, path = "#" ++ pointer ∧ root.pointer? pointer = some node := by
  -- The induction is on the way down, with the segments that were gone through so far.
  have stands : ∃ pointer segments, path = "#" ++ pointer ∧
      Pointer.segments? pointer.toList = some segments ∧ root.at? segments = some node := by
    induction h with
    | here => exact ⟨"", [], by simp, rfl, rfl⟩
    | @step path' name value' child _ found plain ih =>
        rcases ih with ⟨pointer, segments, rfl, read, stands⟩
        refine ⟨pointer ++ "/" ++ name, segments ++ [name], by simp [String.append_assoc], ?_, ?_⟩
        · rw [String.toList_append, String.toList_append, List.append_assoc]
          exact Pointer.segments?_append read plain.1 plain.2
        · rw [at?_append, stands]
          simp [at?, found]
  rcases stands with ⟨pointer, segments, isPath, read, stands⟩
  refine ⟨pointer, isPath, ?_⟩
  rw [pointer?, read]
  exact stands

end HyperSchema.Json
