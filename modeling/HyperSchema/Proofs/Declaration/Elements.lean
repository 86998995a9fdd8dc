import HyperSchema.Declaration.Lexer
import Mathlib.Algebra.Group.Nat.Defs

/-!
# Elements — how the characters of a literal are written

A string literal is a row of elements between two quotes.  An element is a spelling of one
character, or it continues the line and says nothing.  This file defines:

* `Text.hexNumber?`, the number that hexadecimal digits say, and `Text.hexNumber?_hexPadded`;
* `Lexer.stringBody_plain`, `Lexer.stringBody_escaped` and `Lexer.stringBody_quote`, one step of the
  inside of a literal;
* `Lexer.Element` and `Lexer.Spells`, the elements and the rows of them that spell a text;
* `Lexer.stringBody_of_spells`: elements in a row are read as the text that they spell;
* `Lexer.step_of_spells`: between quotes they are one token.
-/

namespace HyperSchema

/-! ## Hexadecimal numbers -/

namespace Text

/-- The number that hexadecimal digits say, in either case and with any zeros in front. -/
def hexNumber? : List Char → Option Nat
  | [] => some 0
  | c :: digits =>
      (hexValue? c).bind fun d => (hexNumber? digits).map (d * 16 ^ digits.length + ·)

variable {c : Char} {digits : List Char} {n : Nat}

/-- The characters with codes in a range can be tried one by one. -/
theorem exists_ofNat_add {low count : Nat} (least : low ≤ c.toNat) (most : c.toNat < low + count) :
    ∃ n < count, c = Char.ofNat (low + n) := by
  refine ⟨c.toNat - low, Nat.sub_lt_left_of_lt_add least most, ?_⟩
  rw [Nat.add_sub_cancel' least, Char.ofNat_toNat]

theorem hexNumber?_cons_eq_some_iff :
    hexNumber? (c :: digits) = some n ↔
      ∃ d m, hexValue? c = some d ∧ hexNumber? digits = some m ∧
        d * 16 ^ digits.length + m = n := by
  simp only [hexNumber?, Option.bind_eq_some_iff, Option.map_eq_some_iff, exists_and_left]

theorem hexValue?_lt {d : Nat} (h : hexValue? c = some d) : d < 16 := by
  simp only [hexValue?, Bool.and_eq_true, decide_eq_true_eq, Char.le_def,
    UInt32.le_iff_toNat_le] at h
  have code : ∀ c : Char, c.val.toNat = c.toNat := fun _ => rfl
  have bounds : '0'.toNat = 48 ∧ '9'.toNat = 57 ∧ 'a'.toNat = 97 ∧ 'f'.toNat = 102 ∧
      'A'.toNat = 65 ∧ 'F'.toNat = 70 := by decide
  simp only [code] at h
  split at h
  · cases h
    omega
  split at h
  · cases h
    omega
  split at h
  · cases h
    omega
  · cases h

theorem hexNumber?_lt (h : hexNumber? digits = some n) : n < 16 ^ digits.length := by
  induction digits generalizing n with
  | nil =>
      cases h
      exact Nat.one_pos
  | cons c digits ih =>
      rcases hexNumber?_cons_eq_some_iff.1 h with ⟨d, m, value, number, rfl⟩
      have digit := hexValue?_lt value
      calc d * 16 ^ digits.length + m
          < d * 16 ^ digits.length + 16 ^ digits.length := Nat.add_lt_add_left (ih number) _
        _ = (d + 1) * 16 ^ digits.length := (Nat.succ_mul _ _).symm
        _ ≤ 16 * 16 ^ digits.length := Nat.mul_le_mul_right _ digit
        _ = 16 ^ (c :: digits).length := by rw [List.length_cons, Nat.pow_succ, Nat.mul_comm]

/-- A digit may be added to the number in front of it or to the one behind it. -/
theorem shift_digit (code d m count : Nat) :
    (code * 16 + d) * 16 ^ count + m = code * 16 ^ (count + 1) + (d * 16 ^ count + m) := by
  rw [Nat.pow_succ, Nat.add_mul, Nat.add_assoc, Nat.mul_assoc, Nat.mul_comm 16]

theorem hexNumber?_append {more : List Char} {m : Nat} (number : hexNumber? digits = some n)
    (tail : hexNumber? more = some m) :
    hexNumber? (digits ++ more) = some (n * 16 ^ more.length + m) := by
  induction digits generalizing n with
  | nil =>
      cases number
      rw [List.nil_append, tail, Nat.zero_mul, Nat.zero_add]
  | cons c digits ih =>
      rcases hexNumber?_cons_eq_some_iff.1 number with ⟨d, k, value, others, rfl⟩
      refine hexNumber?_cons_eq_some_iff.2 ⟨d, _, value, ih others, ?_⟩
      calc d * 16 ^ (digits ++ more).length + (k * 16 ^ more.length + m)
          = d * 16 ^ digits.length * 16 ^ more.length + (k * 16 ^ more.length + m) := by
            rw [List.length_append, Nat.pow_add, Nat.mul_assoc]
        _ = (d * 16 ^ digits.length + k) * 16 ^ more.length + m := by
            rw [Nat.add_mul, Nat.add_assoc]

theorem hexNumber?_hexDigit {d : Nat} (small : d < 16) : hexNumber? [hexDigit d] = some d := by
  have all : ∀ d < 16, hexNumber? [hexDigit d] = some d := by decide
  exact all d small

theorem length_hexPadded (count n : Nat) : (hexPadded count n).length = count := by
  induction count generalizing n with
  | zero => rfl
  | succ count ih => rw [hexPadded, List.length_append, ih, List.length_singleton]

theorem hexNumber?_hexPadded {count : Nat} (small : n < 16 ^ count) :
    hexNumber? (hexPadded count n) = some n := by
  induction count generalizing n with
  | zero =>
      obtain rfl : n = 0 := Nat.lt_one_iff.1 small
      rfl
  | succ count ih =>
      -- The last digit is the lowest, and the others are those of the quotient.
      have high : n / 16 < 16 ^ count := by
        rw [Nat.pow_succ] at small
        omega
      have low := hexNumber?_hexDigit (Nat.mod_lt n (by omega : 16 > 0))
      have value : n / 16 * 16 ^ [hexDigit (n % 16)].length + n % 16 = n := by
        rw [List.length_singleton]
        omega
      rw [hexPadded, hexNumber?_append (ih high) low, value]

/-- A text starts with so many hexadecimal digits. -/
def HasHex (count : Nat) (text : List Char) : Prop :=
  ∃ digits rest n, text = digits ++ rest ∧ digits.length = count ∧ hexNumber? digits = some n

theorem hasHex_zero (text : List Char) : HasHex 0 text :=
  ⟨[], text, 0, rfl, rfl, rfl⟩

theorem HasHex.cons {count d : Nat} {text : List Char} (value : hexValue? c = some d)
    (h : HasHex count text) : HasHex (count + 1) (c :: text) := by
  rcases h with ⟨digits, rest, n, rfl, rfl, number⟩
  exact ⟨c :: digits, rest, _, rfl, rfl, hexNumber?_cons_eq_some_iff.2 ⟨d, n, value, number, rfl⟩⟩

/-- The digits at the start of a text, and what is behind the last of them. -/
theorem exists_hexNumber?_split (text : List Char) :
    ∃ digits rest n, text = digits ++ rest ∧ hexNumber? digits = some n ∧
      ∀ c ∈ rest.head?, hexValue? c = none := by
  induction text with
  | nil => exact ⟨[], [], 0, rfl, rfl, nofun⟩
  | cons c text ih =>
      cases value : hexValue? c with
      | none =>
          refine ⟨[], c :: text, 0, rfl, rfl, ?_⟩
          rintro _ ⟨⟩
          exact value
      | some d =>
          rcases ih with ⟨digits, rest, n, rfl, number, ends⟩
          exact ⟨c :: digits, rest, _, rfl,
            hexNumber?_cons_eq_some_iff.2 ⟨d, n, value, number, rfl⟩, ends⟩

end Text

namespace Lexer

/-! ## One step of the inside of a literal -/

section StringBody

variable {quote c : Char} {here : Position} {rest : List Char}

theorem stringBody_plain (feed : c ≠ '\n') (backslash : c ≠ '\\') (other : c ≠ quote) :
    stringBody quote here (c :: rest) =
      (stringBody quote (here.advance c) rest).map fun read => (c :: read.1, read.2) := by
  rw [stringBody, if_neg feed, if_neg backslash, if_neg other]
  cases stringBody quote (here.advance c) rest <;> rfl

theorem stringBody_escaped {decoded : Option Char} {next : Cursor}
    (read : escape (here.advance '\\') rest = .ok (decoded, next)) :
    stringBody quote here ('\\' :: rest) =
      (stringBody quote next.position next.text).map fun read =>
        (decoded.toList ++ read.1, read.2) := by
  rw [stringBody, if_neg (by decide), if_pos rfl]
  split
  · rename_i e failed
    rw [read] at failed
    cases failed
  · rename_i found next' found'
    rw [read] at found'
    cases found'
    cases stringBody quote next.position next.text <;> rfl

theorem stringBody_escape_error {e : SyntaxError}
    (failed : escape (here.advance '\\') rest = .error e) :
    stringBody quote here ('\\' :: rest) = .error e := by
  rw [stringBody, if_neg (by decide), if_pos rfl]
  split
  · rename_i e' failed'
    rw [failed] at failed'
    exact congrArg Except.error (Except.error.inj failed'.symm)
  · rename_i found next read
    rw [failed] at read
    cases read

theorem stringBody_quote (isQ : isQuote quote = true) :
    stringBody quote here (quote :: rest) = .ok ([], ⟨here.advance quote, rest⟩) := by
  have sign : quote = '"' ∨ quote = '\x27' := by simpa [isQuote] using isQ
  have feed : quote ≠ '\n' := by rcases sign with rfl | rfl <;> decide
  have backslash : quote ≠ '\\' := by rcases sign with rfl | rfl <;> decide
  rw [stringBody, if_neg feed, if_neg backslash, if_pos rfl]

end StringBody

/-! ## Elements -/

open Text (hexNumber? HasHex)

/-- The short escapes: a sign behind a backslash, and the character it stands for. -/
def shortEscapes : List (Char × Char) :=
  [('n', '\n'), ('t', '\t'), ('r', '\r'), ('b', '\x08'), ('f', '\x0c'), ('v', '\x0b')]

/-- The digits that start an octal escape, the zero excepted. -/
def octalSigns : List Char := ['1', '2', '3', '4', '5', '6', '7']

/-- The signs that do not stand for themselves behind a backslash. -/
def escapeSigns : List Char :=
  shortEscapes.map Prod.fst ++ octalSigns ++ ['0', 'x', 'u', '\n', '\r', '\u2028', '\u2029']

/-- The elements of a literal with these quotes: the character that an element stands for, how it is
written, and what it is written in front of. -/
inductive Element (quote : Char) : Option Char → List Char → List Char → Prop
  | plain {c : Char} {behind : List Char} : c ≠ '\n' → c ≠ '\\' → c ≠ quote →
      Element quote (some c) [c] behind
  | short {sign c : Char} {behind : List Char} : (sign, c) ∈ shortEscapes →
      Element quote (some c) ['\\', sign] behind
  | zero {behind : List Char} : (∀ c ∈ behind.head?, c.isDigit = false) →
      Element quote (some '\x00') ['\\', '0'] behind
  | itself {c : Char} {behind : List Char} : c ∉ escapeSigns →
      Element quote (some c) ['\\', c] behind
  | twoDigits {c : Char} {digits behind : List Char} : digits.length = 2 →
      hexNumber? digits = some c.toNat → Element quote (some c) ('\\' :: 'x' :: digits) behind
  | fourDigits {c : Char} {digits behind : List Char} : digits.length = 4 →
      hexNumber? digits = some c.toNat → Element quote (some c) ('\\' :: 'u' :: digits) behind
  | pair {c : Char} {high low behind : List Char} : 0x10000 ≤ c.toNat → high.length = 4 →
      low.length = 4 → hexNumber? high = some (0xd800 + (c.toNat - 0x10000) / 0x400) →
        hexNumber? low = some (0xdc00 + (c.toNat - 0x10000) % 0x400) →
          Element quote (some c) ('\\' :: 'u' :: (high ++ '\\' :: 'u' :: low)) behind
  | braces {c : Char} {digits behind : List Char} : digits ≠ [] →
      hexNumber? digits = some c.toNat →
        Element quote (some c) ('\\' :: 'u' :: '{' :: (digits ++ ['}'])) behind
  /-- The line goes on behind its end, which may be of one character or of two. -/
  | continued {c : Char} {behind : List Char} : c ∈ ['\n', '\u2028', '\u2029'] →
      Element quote none ['\\', c] behind
  | continuedReturn {behind : List Char} : behind.head? ≠ some '\n' →
      Element quote none ['\\', '\r'] behind
  | continuedBoth {behind : List Char} : Element quote none ['\\', '\r', '\n'] behind

/-- In front of some text, elements in a row spell a text. -/
inductive Spells (quote : Char) (behind : List Char) : List Char → List Char → Prop
  | nil : Spells quote behind [] []
  | cons {decoded : Option Char} {code value text : List Char} :
      Element quote decoded code (text ++ behind) → Spells quote behind value text →
        Spells quote behind (decoded.toList ++ value) (code ++ text)

/-! ### What is read of an element -/

variable {quote c : Char} {digits behind : List Char} {n : Nat} {here : Position}

theorem hexDigits_of_hexNumber? {count : Nat} (number : hexNumber? digits = some n)
    (length : digits.length = count) (code : Nat) (here : Position) (rest : List Char) :
    hexDigits count code here (digits ++ rest) =
      .ok (code * 16 ^ count + n, ⟨here.advanceAll digits, rest⟩) := by
  subst length
  induction digits generalizing code here n with
  | nil =>
      cases number
      simp [hexDigits]
  | cons c digits ih =>
      rcases Text.hexNumber?_cons_eq_some_iff.1 number with ⟨d, m, value, tail, rfl⟩
      rw [List.cons_append, List.length_cons, hexDigits]
      simp only [value]
      rw [ih tail, Text.shift_digit]
      rfl

theorem scalar_toNat (here : Position) (c : Char) : scalar here c.toNat = .ok c := by
  have valid : c.toNat.isValidChar := c.valid
  rw [scalar, if_pos valid, Char.ofNat_toNat]

theorem scalarAt_toNat (next : Cursor) (c : Char) : scalarAt next c.toNat = .ok (c, next) := by
  rw [scalarAt, scalar_toNat]

theorem hexEscape_of_hexNumber? (number : hexNumber? digits = some c.toNat)
    (length : digits.length = 2) (here : Position) (rest : List Char) :
    hexEscape here (digits ++ rest) = .ok (c, ⟨here.advanceAll digits, rest⟩) := by
  rw [hexEscape, hexDigits_of_hexNumber? number length, Nat.zero_mul, Nat.zero_add]
  exact scalarAt_toNat _ c

/-- Without a brace in front, four digits are read. -/
theorem unicodeEscape_eq_fourDigitEscape {text : List Char} (plain : text.head? ≠ some '{')
    (here : Position) : unicodeEscape here text = fourDigitEscape here text := by
  unfold unicodeEscape
  split
  · exact absurd rfl plain
  · rfl

theorem head?_ne_of_hexNumber? (number : hexNumber? digits = some n) (nonempty : digits ≠ [])
    (rest : List Char) : (digits ++ rest).head? ≠ some '{' := by
  cases digits with
  | nil => exact absurd rfl nonempty
  | cons c digits =>
      rcases Text.hexNumber?_cons_eq_some_iff.1 number with ⟨d, m, value, -, -⟩
      rintro ⟨⟩
      cases value

theorem fourDigitEscape_of_hexNumber? (number : hexNumber? digits = some c.toNat)
    (length : digits.length = 4) (here : Position) (rest : List Char) :
    fourDigitEscape here (digits ++ rest) = .ok (c, ⟨here.advanceAll digits, rest⟩) := by
  -- A character is no half of a surrogate pair.
  have whole : isHighSurrogate c.toNat = false := by
    have valid : c.toNat.isValidChar := c.valid
    simp only [isHighSurrogate, Bool.and_eq_false_iff, decide_eq_false_iff_not]
    omega
  rw [fourDigitEscape, hexDigits_of_hexNumber? number length, Nat.zero_mul, Nat.zero_add]
  simp only [whole, Bool.false_eq_true, if_false]
  exact scalarAt_toNat _ c

theorem pairSign_self (sign : Char) (here : Position) (rest : List Char) :
    pairSign sign ⟨here, sign :: rest⟩ = .ok ⟨here.advance sign, rest⟩ :=
  if_pos rfl

theorem pairSign_of_ne {sign : Char} (other : c ≠ sign) (here : Position) (rest : List Char) :
    pairSign sign ⟨here, c :: rest⟩ = fail (here.advance c) .unpairedSurrogate :=
  if_neg other

theorem fourDigitEscape_of_pair {high low : List Char} (astral : 0x10000 ≤ c.toNat)
    (highLength : high.length = 4) (lowLength : low.length = 4)
    (highNumber : hexNumber? high = some (0xd800 + (c.toNat - 0x10000) / 0x400))
    (lowNumber : hexNumber? low = some (0xdc00 + (c.toNat - 0x10000) % 0x400))
    (here : Position) (rest : List Char) :
    fourDigitEscape here (high ++ '\\' :: 'u' :: (low ++ rest)) =
      .ok (c, ⟨here.advanceAll (high ++ '\\' :: 'u' :: low), rest⟩) := by
  have valid : c.toNat.isValidChar := c.valid
  have isHigh : isHighSurrogate (0xd800 + (c.toNat - 0x10000) / 0x400) = true := by
    simp only [isHighSurrogate, Bool.and_eq_true, decide_eq_true_eq]
    omega
  have isLow : isLowSurrogate (0xdc00 + (c.toNat - 0x10000) % 0x400) = true := by
    simp only [isLowSurrogate, Bool.and_eq_true, decide_eq_true_eq]
    omega
  have joined : joinSurrogates (0xd800 + (c.toNat - 0x10000) / 0x400)
      (0xdc00 + (c.toNat - 0x10000) % 0x400) = c.toNat := by
    unfold joinSurrogates
    omega
  rw [fourDigitEscape, hexDigits_of_hexNumber? highNumber highLength, Nat.zero_mul, Nat.zero_add]
  simp only [isHigh, if_true, surrogatePair, pairSign_self, bind, Except.bind]
  rw [hexDigits_of_hexNumber? lowNumber lowLength, Nat.zero_mul, Nat.zero_add]
  simp only [isLow, if_true, joined, scalarAt_toNat, Position.advanceAll_append,
    Position.advanceAll_cons]

/-- Digits in braces are read to the last, unless their number does not fit. -/
theorem bracedDigits_cases {rest : List Char} (number : hexNumber? digits = some n)
    (ends : ∀ c ∈ rest.head?, Text.hexValue? c = none) (code count : Nat) (here : Position) :
    bracedDigits code count here (digits ++ rest) =
        .ok ((code * 16 ^ digits.length + n, count + digits.length),
          ⟨here.advanceAll digits, rest⟩) ∨
      2 ^ 32 ≤ code * 16 ^ digits.length + n ∧
        ∃ e, bracedDigits code count here (digits ++ rest) = .error e := by
  induction digits generalizing code count here n with
  | nil =>
      cases number
      refine .inl ?_
      cases rest with
      | nil => simp [bracedDigits]
      | cons c rest =>
          have stop : Text.hexValue? c = none := ends c rfl
          simp [bracedDigits, stop]
  | cons c digits ih =>
      rcases Text.hexNumber?_cons_eq_some_iff.1 number with ⟨d, m, value, tail, rfl⟩
      have step : bracedDigits code count here (c :: digits ++ rest) =
          if code * 16 + d < Nat.pow 2 32 then
            bracedDigits (code * 16 + d) (count + 1) (here.advance c) (digits ++ rest)
          else fail (here.advance c) .escapeOutOfRange := by
        rw [List.cons_append, bracedDigits, value]
      rw [step, List.length_cons, ← Text.shift_digit, ← Nat.add_assoc, Nat.add_right_comm count]
      split
      · exact ih tail (code * 16 + d) (count + 1) (here.advance c)
      · -- The number only grows with the digits behind.
        rename_i large
        refine .inr ⟨?_, _, rfl⟩
        calc 2 ^ 32 ≤ code * 16 + d := Nat.le_of_not_lt large
          _ ≤ (code * 16 + d) * 16 ^ digits.length :=
            Nat.le_mul_of_pos_right _ (Nat.pow_pos (by decide))
          _ ≤ (code * 16 + d) * 16 ^ digits.length + m := Nat.le_add_right _ _

theorem bracedEscape_of_hexNumber? (nonempty : digits ≠ [])
    (number : hexNumber? digits = some c.toNat) (here : Position) (rest : List Char) :
    bracedEscape here (digits ++ '}' :: rest) =
      .ok (c, ⟨here.advanceAll (digits ++ ['}']), rest⟩) := by
  have ends : ∀ d ∈ ('}' :: rest).head?, Text.hexValue? d = none := by
    rintro _ ⟨⟩
    decide
  have valid : c.toNat.isValidChar := c.valid
  have several : digits.length ≠ 0 := fun none => nonempty (List.length_eq_zero_iff.1 none)
  rcases bracedDigits_cases number ends 0 0 here with read | ⟨large, -⟩
  · rw [Nat.zero_mul, Nat.zero_add, Nat.zero_add] at read
    simp only [bracedEscape, read, bind, Except.bind, if_neg several, if_true, scalar_toNat,
      Position.advanceAll_append, Position.advanceAll_cons, Position.advanceAll_nil]
  · -- No character has so large a code.
    rw [Nat.zero_mul, Nat.zero_add] at large
    omega

theorem mem_octalSigns (low : '0' ≤ c) (high : c ≤ '7') : c ∈ '0' :: octalSigns := by
  rw [Char.le_def, UInt32.le_iff_toNat_le] at low high
  have all : ∀ n < 8, Char.ofNat (48 + n) ∈ '0' :: octalSigns := by decide
  have most : c.toNat < 48 + 8 := Nat.lt_succ_of_le high
  rcases Text.exists_ofNat_add low most with ⟨n, few, rfl⟩
  exact all n few

/-- A sign without a meaning of its own stands for itself. -/
theorem escape_of_not_mem (plain : c ∉ escapeSigns) (here : Position) (rest : List Char) :
    escape here (c :: rest) = .ok (some c, ⟨here.advance c, rest⟩) := by
  have other : ∀ sign ∈ escapeSigns, c ≠ sign := fun sign mem same => plain (same ▸ mem)
  -- Each special case of the reader has its signs in the table, so none of them applies.
  have noShort : shortEscape? c = none := by
    unfold shortEscape?
    split
    all_goals first
      | rfl
      | exact absurd rfl (other _ (by decide))
  have noOctal : ¬ ('0' ≤ c ∧ c ≤ '7') := by
    rintro ⟨low, high⟩
    refine plain ?_
    rcases List.mem_cons.1 (mem_octalSigns low high) with rfl | mem
    · exact List.mem_append_right _ List.mem_cons_self
    · exact List.mem_append_left _ (List.mem_append_right _ mem)
  have noLineEnd : isLineEnd c = false := by
    have two : c.toNat ≠ 0x2028 ∧ c.toNat ≠ 0x2029 := by
      constructor
      · intro code
        exact other '\u2028' (by decide) (Char.toNat_inj.1 code)
      · intro code
        exact other '\u2029' (by decide) (Char.toNat_inj.1 code)
    simp [isLineEnd, two, other '\n' (by decide)]
  rw [escape]
  simp [noShort, noOctal, noLineEnd, other '0' (by decide), other 'x' (by decide),
    other 'u' (by decide), other '\r' (by decide)]

theorem escape_x (here : Position) (rest : List Char) :
    escape here ('x' :: rest) =
      (hexEscape (here.advance 'x') rest).map fun (d, next) => (some d, next) := rfl

theorem escape_u (here : Position) (rest : List Char) :
    escape here ('u' :: rest) =
      (unicodeEscape (here.advance 'u') rest).map fun (d, next) => (some d, next) := rfl

/-- What stands behind the backslash of an element is read as what the element says. -/
theorem escape_of_element {decoded : Option Char} {code : List Char}
    (h : Element quote decoded ('\\' :: code) behind) (here : Position) :
    escape here (code ++ behind) = .ok (decoded, ⟨here.advanceAll code, behind⟩) := by
  cases h with
  | plain _ backslash _ => exact absurd rfl backslash
  | short mem =>
      simp only [shortEscapes, List.mem_cons, Prod.mk.injEq, List.not_mem_nil, or_false] at mem
      rcases mem with ⟨rfl, rfl⟩ | ⟨rfl, rfl⟩ | ⟨rfl, rfl⟩ | ⟨rfl, rfl⟩ | ⟨rfl, rfl⟩ | ⟨rfl, rfl⟩
      all_goals rfl
  | zero free =>
      -- With a digit behind it, a zero would start an octal escape.
      cases behind with
      | nil => rfl
      | cons c behind =>
          have noDigit : startsWithDigit (c :: behind) = false := free c rfl
          rw [List.singleton_append, escape]
          simp [shortEscape?, noDigit]
  | itself plain => exact escape_of_not_mem plain here behind
  | twoDigits length number =>
      rw [List.cons_append, escape_x, hexEscape_of_hexNumber? number length]
      rfl
  | @fourDigits _ digits _ length number =>
      have nonempty : digits ≠ [] := by
        rintro rfl
        cases length
      rw [List.cons_append, escape_u,
        unicodeEscape_eq_fourDigitEscape (head?_ne_of_hexNumber? number nonempty _),
        fourDigitEscape_of_hexNumber? number length]
      rfl
  | @pair _ high low _ astral highLength lowLength highNumber lowNumber =>
      have nonempty : high ≠ [] := by
        rintro rfl
        cases highLength
      have split : high ++ '\\' :: 'u' :: low ++ behind =
          high ++ '\\' :: 'u' :: (low ++ behind) := by
        simp
      rw [List.cons_append, escape_u, split,
        unicodeEscape_eq_fourDigitEscape (head?_ne_of_hexNumber? highNumber nonempty _),
        fourDigitEscape_of_pair astral highLength lowLength highNumber lowNumber]
      rfl
  | @braces _ digits _ nonempty number =>
      have split : digits ++ ['}'] ++ behind = digits ++ '}' :: behind := by simp
      rw [List.cons_append, List.cons_append, escape_u, unicodeEscape, split,
        bracedEscape_of_hexNumber? nonempty number]
      rfl
  | continued mem =>
      simp only [List.mem_cons, List.not_mem_nil, or_false] at mem
      rcases mem with rfl | rfl | rfl
      all_goals rfl
  | continuedReturn alone =>
      -- A return takes the line feed behind it along, and there is none.
      have next : behindReturn (here.advance '\r') behind = ⟨here.advance '\r', behind⟩ := by
        unfold behindReturn
        split
        · exact absurd rfl alone
        · rfl
      rw [List.singleton_append, escape]
      simp [shortEscape?, next]
  | continuedBoth => rfl

/-- An element is one character, or it starts with a backslash. -/
theorem Element.code_cases {decoded : Option Char} {code : List Char}
    (h : Element quote decoded code behind) :
    (∃ c, decoded = some c ∧ code = [c] ∧ c ≠ '\n' ∧ c ≠ '\\' ∧ c ≠ quote) ∨
      ∃ others, code = '\\' :: others := by
  cases h with
  | plain feed backslash other => exact .inl ⟨_, rfl, rfl, feed, backslash, other⟩
  | _ => exact .inr ⟨_, rfl⟩

/-- An element is read, and the rest of the literal behind it. -/
theorem stringBody_of_element {decoded : Option Char} {code : List Char}
    (h : Element quote decoded code behind) (here : Position) :
    stringBody quote here (code ++ behind) =
      (stringBody quote (here.advanceAll code) behind).map fun read =>
        (decoded.toList ++ read.1, read.2) := by
  rcases h.code_cases with ⟨c, rfl, rfl, feed, backslash, other⟩ | ⟨others, rfl⟩
  · exact stringBody_plain feed backslash other
  · exact stringBody_escaped (escape_of_element h (here.advance '\\'))

/-- Elements in a row are read as the text that they spell. -/
theorem stringBody_of_spells {value text : List Char} (h : Spells quote behind value text)
    (here : Position) :
    stringBody quote here (text ++ behind) =
      (stringBody quote (here.advanceAll text) behind).map fun read =>
        (value ++ read.1, read.2) := by
  induction h generalizing here with
  | nil =>
      show stringBody quote here behind = (stringBody quote here behind).map fun read => read
      cases stringBody quote here behind <;> rfl
  | @cons decoded code value text element _ ih =>
      rw [List.append_assoc, stringBody_of_element element, ih, Position.advanceAll_append]
      cases stringBody quote ((here.advanceAll code).advanceAll text) behind with
      | error e => rfl
      | ok read =>
          exact congrArg (fun all => Except.ok (all, read.2)) (List.append_assoc _ _ _).symm

theorem step_quote (isQ : isQuote quote = true) (here : Position) (rest : List Char) :
    step here quote rest =
      (stringBody quote (here.advance quote) rest).map fun (value, next) =>
        token here (.text (String.ofList value)) next := by
  have sign : quote = '"' ∨ quote = '\x27' := by simpa [isQuote] using isQ
  have blank : Text.isBlank quote = false := by rcases sign with rfl | rfl <;> decide
  have slash : quote ≠ '/' := by rcases sign with rfl | rfl <;> decide
  rw [step, blank, if_neg Bool.false_ne_true, if_neg slash, if_pos isQ]

/-- Between quotes, elements that spell a text are one token. -/
theorem step_of_spells {value : String} {body rest : List Char} (isQ : isQuote quote = true)
    (h : Spells quote (quote :: rest) value.toList body) (here : Position) :
    step here quote (body ++ quote :: rest) =
      .ok (some ⟨.text value, here, (here.advanceAll (quote :: (body ++ [quote]))).line⟩,
        ⟨here.advanceAll (quote :: (body ++ [quote])), rest⟩) := by
  rw [step_quote isQ, stringBody_of_spells h, stringBody_quote isQ]
  simp [Except.map, token, Position.advanceAll_append]

end Lexer

end HyperSchema
