import HyperSchema.Declaration.Parser
import HyperSchema.Proofs.Declaration.Gaps

/-!
# Literals — every spelling of a text is read, and nothing else is

What stands behind an opening quote comes to the closing quote, or to a text that no element starts.
This file defines:

* `Lexer.IsBad` and `Lexer.IsFaulty`, a text that no element starts, and a literal that comes to
  one;
* `Lexer.stringBody_of_isFaulty`: no faulty literal is read;
* `Lexer.spells_or_isFaulty`: every literal that is not faulty spells a text;
* `Lexer.literal_of_spells`: a literal is read as the text that it spells, and a faulty one is an
  error wherever it stands.
-/

namespace HyperSchema

namespace Lexer

open Text (hexNumber? HasHex)

variable {quote c : Char} {digits : List Char} {n : Nat}

/-! ## Faults -/

/-- A surrogate in the lower range is written here. -/
def HasLowHalf (text : List Char) : Prop :=
  ∃ digits rest n, text = '\\' :: 'u' :: (digits ++ rest) ∧ digits.length = 4 ∧
    hexNumber? digits = some n ∧ 0xdc00 ≤ n ∧ n < 0xe000

/-- The texts that neither an element nor the closing quote starts. -/
inductive IsBad : List Char → Prop
  /-- The closing quote is missing. -/
  | unclosed : IsBad []
  | cut : IsBad ['\\']
  | rawFeed {rest : List Char} : IsBad ('\n' :: rest)
  | octal {sign : Char} {rest : List Char} : sign ∈ octalSigns →
      IsBad ('\\' :: sign :: rest)
  | octalZero {digit : Char} {rest : List Char} : digit.isDigit = true →
      IsBad ('\\' :: '0' :: digit :: rest)
  | shortHex {rest : List Char} : ¬ HasHex 2 rest → IsBad ('\\' :: 'x' :: rest)
  | shortUnicode {rest : List Char} : ¬ HasHex 4 rest → rest.head? ≠ some '{' →
      IsBad ('\\' :: 'u' :: rest)
  /-- The first half of a surrogate pair without the second. -/
  | loneHigh {digits rest : List Char} {n : Nat} : digits.length = 4 →
      hexNumber? digits = some n → 0xd800 ≤ n → n < 0xdc00 → ¬ HasLowHalf rest →
        IsBad ('\\' :: 'u' :: (digits ++ rest))
  /-- The second half of a surrogate pair without the first. -/
  | loneLow {digits rest : List Char} {n : Nat} : digits.length = 4 →
      hexNumber? digits = some n → 0xdc00 ≤ n → n < 0xe000 →
        IsBad ('\\' :: 'u' :: (digits ++ rest))
  | emptyBraces {rest : List Char} : (∀ c ∈ rest.head?, Text.hexValue? c = none) →
      IsBad ('\\' :: 'u' :: '{' :: rest)
  | openBraces {digits rest : List Char} {n : Nat} : hexNumber? digits = some n →
      (∀ c ∈ rest.head?, Text.hexValue? c = none) → rest.head? ≠ some '}' →
        IsBad ('\\' :: 'u' :: '{' :: (digits ++ rest))
  | outOfRange {digits rest : List Char} {n : Nat} : hexNumber? digits = some n →
      ¬ n.isValidChar → IsBad ('\\' :: 'u' :: '{' :: (digits ++ '}' :: rest))

/-- Behind some elements, a literal comes to what is no element. -/
def IsFaulty (quote : Char) (text : List Char) : Prop :=
  ∃ value body bad, text = body ++ bad ∧ Spells quote bad value body ∧ IsBad bad

/-! ### What is read of a fault -/

/-- A reader fails. -/
def Fails {α : Type} (read : Except SyntaxError α) : Prop :=
  ∃ e, read = .error e

theorem Fails.map {α β : Type} {read : Except SyntaxError α} (h : Fails read) (f : α → β) :
    Fails (read.map f) := by
  rcases h with ⟨e, rfl⟩
  exact ⟨e, rfl⟩

theorem hexDigits_fails {count : Nat} {text : List Char} (short : ¬ HasHex count text)
    (code : Nat) (here : Position) : Fails (hexDigits count code here text) := by
  induction count generalizing code here text with
  | zero => exact absurd (Text.hasHex_zero text) short
  | succ count ih =>
      cases text with
      | nil => exact ⟨_, rfl⟩
      | cons c rest =>
          rw [hexDigits]
          split
          · rename_i d value
            exact ih (fun more => short (more.cons value)) _ _
          · exact ⟨_, rfl⟩

theorem scalar_fails (invalid : ¬ n.isValidChar) (here : Position) : Fails (scalar here n) := by
  rw [scalar, if_neg invalid]
  exact ⟨_, rfl⟩

theorem hexEscape_fails {text : List Char} (short : ¬ HasHex 2 text) (here : Position) :
    Fails (hexEscape here text) := by
  rcases hexDigits_fails short 0 here with ⟨e, failed⟩
  exact ⟨e, by rw [hexEscape, failed]⟩

theorem surrogatePair_fails {text : List Char} (alone : ¬ HasLowHalf text) (high : Nat)
    (here : Position) : Fails (surrogatePair high ⟨here, text⟩) := by
  -- Each of the three parts of the second half may be missing.
  cases text with
  | nil => exact ⟨_, rfl⟩
  | cons c text =>
      by_cases backslash : c = '\\'
      · subst backslash
        cases text with
        | nil => exact ⟨_, rfl⟩
        | cons c text =>
            by_cases letter : c = 'u'
            · subst letter
              simp only [surrogatePair, pairSign_self, bind, Except.bind]
              by_cases four : HasHex 4 text
              · rcases four with ⟨digits, rest, n, rfl, length, number⟩
                rw [hexDigits_of_hexNumber? number length, Nat.zero_mul, Nat.zero_add]
                have noLow : isLowSurrogate n = false := by
                  refine eq_false_of_ne_true fun isLow => ?_
                  simp only [isLowSurrogate, Bool.and_eq_true, decide_eq_true_eq] at isLow
                  exact alone ⟨digits, rest, n, rfl, length, number, isLow⟩
                simp only [noLow, Bool.false_eq_true, if_false]
                exact ⟨_, rfl⟩
              · rcases hexDigits_fails four 0 ((here.advance '\\').advance 'u') with ⟨e, failed⟩
                rw [failed]
                exact ⟨e, rfl⟩
            · simp only [surrogatePair, pairSign_self, pairSign_of_ne letter, bind, Except.bind]
              exact ⟨_, rfl⟩
      · simp only [surrogatePair, pairSign_of_ne backslash, bind, Except.bind]
        exact ⟨_, rfl⟩

theorem fourDigitEscape_fails_of_short {text : List Char} (short : ¬ HasHex 4 text)
    (here : Position) : Fails (fourDigitEscape here text) := by
  rcases hexDigits_fails short 0 here with ⟨e, failed⟩
  exact ⟨e, by rw [fourDigitEscape, failed]⟩

theorem fourDigitEscape_fails_of_high {rest : List Char} (length : digits.length = 4)
    (number : hexNumber? digits = some n) (low : 0xd800 ≤ n) (high : n < 0xdc00)
    (alone : ¬ HasLowHalf rest) (here : Position) :
    Fails (fourDigitEscape here (digits ++ rest)) := by
  have isHigh : isHighSurrogate n = true := by
    simp only [isHighSurrogate, Bool.and_eq_true, decide_eq_true_eq]
    exact ⟨low, high⟩
  rw [fourDigitEscape, hexDigits_of_hexNumber? number length, Nat.zero_mul, Nat.zero_add]
  simp only [isHigh, if_true]
  exact surrogatePair_fails alone n _

theorem fourDigitEscape_fails_of_low {rest : List Char} (length : digits.length = 4)
    (number : hexNumber? digits = some n) (low : 0xdc00 ≤ n) (high : n < 0xe000)
    (here : Position) : Fails (fourDigitEscape here (digits ++ rest)) := by
  have noHigh : isHighSurrogate n = false := by
    simp only [isHighSurrogate, Bool.and_eq_false_iff, decide_eq_false_iff_not]
    omega
  have invalid : ¬ n.isValidChar := by
    unfold Nat.isValidChar
    omega
  rcases scalar_fails invalid (here.advanceAll digits) with ⟨e, failed⟩
  rw [fourDigitEscape, hexDigits_of_hexNumber? number length, Nat.zero_mul, Nat.zero_add]
  simp only [noHigh, Bool.false_eq_true, if_false, scalarAt, failed]
  exact ⟨e, rfl⟩

theorem bracedEscape_fails_of_open {rest : List Char} (number : hexNumber? digits = some n)
    (ends : ∀ c ∈ rest.head?, Text.hexValue? c = none)
    (unclosed : digits = [] ∨ rest.head? ≠ some '}') (here : Position) :
    Fails (bracedEscape here (digits ++ rest)) := by
  unfold bracedEscape
  rcases bracedDigits_cases number ends 0 0 here with read | ⟨-, e, failed⟩
  · simp only [read, bind, Except.bind]
    split
    · exact ⟨_, rfl⟩
    · rename_i several
      cases rest with
      | nil => exact ⟨_, rfl⟩
      | cons c rest =>
          have other : c ≠ '}' := by
            rintro rfl
            rcases unclosed with rfl | unclosed
            · exact several rfl
            · exact unclosed rfl
          simp only [if_neg other]
          exact ⟨_, rfl⟩
  · simp only [failed, bind, Except.bind]
    exact ⟨e, rfl⟩

theorem bracedEscape_fails_of_range {rest : List Char} (number : hexNumber? digits = some n)
    (invalid : ¬ n.isValidChar) (here : Position) :
    Fails (bracedEscape here (digits ++ '}' :: rest)) := by
  have ends : ∀ c ∈ ('}' :: rest).head?, Text.hexValue? c = none := by
    rintro _ ⟨⟩
    decide
  unfold bracedEscape
  rcases bracedDigits_cases number ends 0 0 here with read | ⟨-, e, failed⟩
  · rw [Nat.zero_mul, Nat.zero_add] at read
    rcases scalar_fails invalid ((here.advanceAll digits).advance '}') with ⟨e, failed⟩
    simp only [read, bind, Except.bind]
    split
    · exact ⟨_, rfl⟩
    · simp only [if_true, failed]
      exact ⟨e, rfl⟩
  · simp only [failed, bind, Except.bind]
    exact ⟨e, rfl⟩

/-- A bad text behind a backslash is no escape. -/
theorem escape_fails {text : List Char} (h : IsBad ('\\' :: text)) (here : Position) :
    Fails (escape here text) := by
  -- What stands behind the letter decides in the last seven cases.
  have noBrace : ∀ {digits rest : List Char} {n : Nat}, digits.length = 4 →
      hexNumber? digits = some n → (digits ++ rest).head? ≠ some '{' := by
    intro digits rest n length number
    refine head?_ne_of_hexNumber? number ?_ rest
    rintro rfl
    cases length
  cases h with
  | cut => exact ⟨_, rfl⟩
  | octal mem =>
      simp only [octalSigns, List.mem_cons, List.not_mem_nil, or_false] at mem
      rcases mem with rfl | rfl | rfl | rfl | rfl | rfl | rfl
      all_goals exact ⟨_, rfl⟩
  | @octalZero digit rest isDigit =>
      have starts : startsWithDigit (digit :: rest) = true := isDigit
      refine ⟨⟨here.advance '0', .octalEscape⟩, ?_⟩
      rw [escape]
      simp [shortEscape?, starts, fail]
  | shortHex short =>
      rw [escape_x]
      exact (hexEscape_fails short _).map _
  | shortUnicode short plain =>
      rw [escape_u, unicodeEscape_eq_fourDigitEscape plain]
      exact (fourDigitEscape_fails_of_short short _).map _
  | loneHigh length number low high alone =>
      rw [escape_u, unicodeEscape_eq_fourDigitEscape (noBrace length number)]
      exact (fourDigitEscape_fails_of_high length number low high alone _).map _
  | loneLow length number low high =>
      rw [escape_u, unicodeEscape_eq_fourDigitEscape (noBrace length number)]
      exact (fourDigitEscape_fails_of_low length number low high _).map _
  | @emptyBraces rest ends =>
      have noDigits : hexNumber? [] = some 0 := rfl
      rw [escape_u]
      exact (bracedEscape_fails_of_open noDigits ends (.inl rfl) _).map _
  | openBraces number ends unclosed =>
      rw [escape_u]
      exact (bracedEscape_fails_of_open number ends (.inr unclosed) _).map _
  | outOfRange number invalid =>
      rw [escape_u]
      exact (bracedEscape_fails_of_range number invalid _).map _

theorem stringBody_of_isBad {text : List Char} (h : IsBad text) (here : Position) :
    Fails (stringBody quote here text) := by
  cases text with
  | nil =>
      rw [stringBody]
      exact ⟨_, rfl⟩
  | cons c text =>
      by_cases backslash : c = '\\'
      · subst backslash
        rcases escape_fails h (here.advance '\\') with ⟨e, failed⟩
        exact ⟨e, stringBody_escape_error failed⟩
      · cases h with
        | rawFeed =>
            rw [stringBody, if_pos rfl]
            exact ⟨_, rfl⟩
        | _ => exact absurd rfl backslash

/-- A faulty literal is not read. -/
theorem stringBody_of_isFaulty {text : List Char} (h : IsFaulty quote text) (here : Position) :
    Fails (stringBody quote here text) := by
  rcases h with ⟨value, body, bad, rfl, spells, isBad⟩
  rw [stringBody_of_spells spells]
  exact (stringBody_of_isBad isBad _).map _

/-! ## Nothing in between -/

theorem exists_toNat_eq (valid : n.isValidChar) : ∃ c : Char, c.toNat = n := by
  refine ⟨Char.ofNat n, ?_⟩
  rw [Char.ofNat, dif_pos valid]
  rfl

/-- An element starts a text. -/
def StartsElement (quote : Char) (text : List Char) : Prop :=
  ∃ decoded code rest, text = code ++ rest ∧ code ≠ [] ∧ Element quote decoded code rest

theorem hex_startsElement_or_isBad (quote : Char) (text : List Char) :
    StartsElement quote ('\\' :: 'x' :: text) ∨ IsBad ('\\' :: 'x' :: text) := by
  by_cases two : HasHex 2 text
  · rcases two with ⟨digits, rest, n, rfl, length, number⟩
    have small : n < 256 := by
      have bound := Text.hexNumber?_lt number
      rwa [length] at bound
    rcases exists_toNat_eq (Or.inl (by omega) : n.isValidChar) with ⟨c, rfl⟩
    exact .inl ⟨some c, '\\' :: 'x' :: digits, rest, rfl, nofun, .twoDigits length number⟩
  · exact .inr (.shortHex two)

/-- Four digits say a character, or half of a surrogate pair, which needs the other half. -/
theorem fourDigits_startsElement_or_isBad (quote : Char) {rest : List Char}
    (length : digits.length = 4) (number : hexNumber? digits = some n) :
    StartsElement quote ('\\' :: 'u' :: (digits ++ rest)) ∨
      IsBad ('\\' :: 'u' :: (digits ++ rest)) := by
  have small : n < 65536 := by
    have bound := Text.hexNumber?_lt number
    rwa [length] at bound
  by_cases isHigh : 0xd800 ≤ n ∧ n < 0xdc00
  · by_cases paired : HasLowHalf rest
    · rcases paired with ⟨low, rest, m, rfl, lowLength, lowNumber, least, most⟩
      -- The halves are those of one character beyond the first plane.
      have valid : (0x10000 + (n - 0xd800) * 0x400 + (m - 0xdc00)).isValidChar := by
        unfold Nat.isValidChar
        omega
      rcases exists_toNat_eq valid with ⟨c, code⟩
      have highNumber : hexNumber? digits = some (0xd800 + (c.toNat - 0x10000) / 0x400) := by
        rw [number]
        exact congrArg some (by omega)
      have lowNumber : hexNumber? low = some (0xdc00 + (c.toNat - 0x10000) % 0x400) := by
        rw [lowNumber]
        exact congrArg some (by omega)
      exact .inl ⟨some c, '\\' :: 'u' :: (digits ++ '\\' :: 'u' :: low), rest, by simp, nofun,
        .pair (by omega) length lowLength highNumber lowNumber⟩
    · exact .inr (.loneHigh length number isHigh.1 isHigh.2 paired)
  by_cases isLow : 0xdc00 ≤ n ∧ n < 0xe000
  · exact .inr (.loneLow length number isLow.1 isLow.2)
  · have valid : n.isValidChar := by
      unfold Nat.isValidChar
      omega
    rcases exists_toNat_eq valid with ⟨c, rfl⟩
    exact .inl ⟨some c, '\\' :: 'u' :: digits, rest, rfl, nofun, .fourDigits length number⟩

theorem braces_startsElement_or_isBad (quote : Char) (text : List Char) :
    StartsElement quote ('\\' :: 'u' :: '{' :: text) ∨ IsBad ('\\' :: 'u' :: '{' :: text) := by
  rcases Text.exists_hexNumber?_split text with ⟨digits, rest, n, rfl, number, ends⟩
  by_cases empty : digits = []
  · subst empty
    exact .inr (.emptyBraces ends)
  by_cases closed : rest.head? = some '}'
  · rcases List.head?_eq_some_iff.1 closed with ⟨rest, rfl⟩
    by_cases valid : n.isValidChar
    · rcases exists_toNat_eq valid with ⟨c, rfl⟩
      exact .inl ⟨some c, '\\' :: 'u' :: '{' :: (digits ++ ['}']), rest, by simp, nofun,
        .braces empty number⟩
    · exact .inr (.outOfRange number valid)
  · exact .inr (.openBraces number ends closed)

theorem unicode_startsElement_or_isBad (quote : Char) (text : List Char) :
    StartsElement quote ('\\' :: 'u' :: text) ∨ IsBad ('\\' :: 'u' :: text) := by
  by_cases brace : text.head? = some '{'
  · rcases List.head?_eq_some_iff.1 brace with ⟨rest, rfl⟩
    exact braces_startsElement_or_isBad quote rest
  by_cases four : HasHex 4 text
  · rcases four with ⟨digits, rest, n, rfl, length, number⟩
    exact fourDigits_startsElement_or_isBad quote length number
  · exact .inr (.shortUnicode four brace)

/-- A backslash starts an element, or it is a fault. -/
theorem backslash_startsElement_or_isBad (quote : Char) (text : List Char) :
    StartsElement quote ('\\' :: text) ∨ IsBad ('\\' :: text) := by
  cases text with
  | nil => exact .inr .cut
  | cons sign text =>
      have one {decoded : Option Char} (h : Element quote decoded ['\\', sign] text) :
          StartsElement quote ('\\' :: sign :: text) :=
        ⟨decoded, ['\\', sign], text, rfl, nofun, h⟩
      by_cases plain : sign ∉ escapeSigns
      · exact .inl (one (.itself plain))
      rw [Decidable.not_not, escapeSigns, List.mem_append, List.mem_append] at plain
      rcases plain with (short | octal) | others
      · rcases List.mem_map.1 short with ⟨⟨_, c⟩, mem, rfl⟩
        exact .inl (one (.short mem))
      · exact .inr (.octal octal)
      simp only [List.mem_cons, List.not_mem_nil, or_false] at others
      rcases others with rfl | rfl | rfl | rfl | rfl | rfl | rfl
      · -- A zero, which no digit may follow.
        cases text with
        | nil => exact .inl (one (.zero nofun))
        | cons digit text =>
            cases isDigit : digit.isDigit with
            | true => exact .inr (.octalZero isDigit)
            | false =>
                refine .inl (one (.zero ?_))
                rintro _ ⟨⟩
                exact isDigit
      · exact hex_startsElement_or_isBad quote text
      · exact unicode_startsElement_or_isBad quote text
      · exact .inl (one (.continued (by decide)))
      · -- A line feed may belong to the end of the line.
        by_cases feed : text.head? = some '\n'
        · rcases List.head?_eq_some_iff.1 feed with ⟨text, rfl⟩
          exact .inl ⟨none, ['\\', '\r', '\n'], text, rfl, nofun, .continuedBoth⟩
        · exact .inl (one (.continuedReturn feed))
      · exact .inl (one (.continued (by decide)))
      · exact .inl (one (.continued (by decide)))

/-- A text starts with the closing quote, with an element or with a fault. -/
theorem startsElement_or_isBad (quote : Char) (text : List Char) :
    text.head? = some quote ∨ StartsElement quote text ∨ IsBad text := by
  cases text with
  | nil => exact .inr (.inr .unclosed)
  | cons c rest =>
      by_cases isQuote : c = quote
      · exact .inl (congrArg some isQuote)
      by_cases backslash : c = '\\'
      · subst backslash
        exact .inr (backslash_startsElement_or_isBad quote rest)
      by_cases feed : c = '\n'
      · subst feed
        exact .inr (.inr .rawFeed)
      · exact .inr (.inl ⟨some c, [c], rest, rfl, nofun, .plain feed backslash isQuote⟩)

/-- What stands behind an opening quote spells a text up to the closing quote, or it is faulty. -/
theorem spells_or_isFaulty (quote : Char) (text : List Char) :
    (∃ value body rest, text = body ++ quote :: rest ∧ Spells quote (quote :: rest) value body) ∨
      IsFaulty quote text := by
  induction size : text.length using Nat.strongRecOn generalizing text with
  | ind size ih =>
      subst size
      rcases startsElement_or_isBad quote text with closed | element | bad
      · rcases List.head?_eq_some_iff.1 closed with ⟨rest, rfl⟩
        exact .inl ⟨[], [], rest, rfl, .nil⟩
      · rcases element with ⟨decoded, code, rest, rfl, nonempty, element⟩
        have shorter : rest.length < (code ++ rest).length := by
          have positive := List.length_pos_iff.2 nonempty
          rw [List.length_append]
          omega
        -- The element may stand in front of whatever follows it, a closed row or a fault.
        rcases ih _ shorter rest rfl with spelt | faulty
        · rcases spelt with ⟨value, body, rest, rfl, spells⟩
          exact .inl ⟨decoded.toList ++ value, code ++ body, rest, (List.append_assoc _ _ _).symm,
            .cons element spells⟩
        · rcases faulty with ⟨value, body, bad, rfl, spells, isBad⟩
          exact .inr ⟨decoded.toList ++ value, code ++ body, bad, (List.append_assoc _ _ _).symm,
            .cons element spells, isBad⟩
      · exact .inr ⟨[], [], text, rfl, .nil, bad⟩

/-! ## Literals in a file -/

/-- A fault that the lexer comes to is the error of the whole text. -/
theorem Passes.parse_eq_error {source : String} {before : List Token} {here : Position}
    {rest : List Char} {e : SyntaxError}
    (passes : Passes ⟨.first, source.toList⟩ before ⟨here, c :: rest⟩)
    (failed : Lexer.step here c rest = .error e) : Declaration.parse source = .error e := by
  have stopped : Lexer.tokens source = .error e := by
    have read := passes.tokensFrom
    rwa [Piece.tokensFrom_of_step_error failed] at read
  rw [Declaration.parse, stopped]

theorem step_of_isFaulty {text : List Char} (isQ : isQuote quote = true)
    (faulty : IsFaulty quote text) (here : Position) : Fails (step here quote text) := by
  rw [step_quote isQ]
  exact (stringBody_of_isFaulty faulty _).map _

/-- A literal is read as the text that its elements spell, and so is what the printer writes.  A
faulty literal is an error of its file, and what stands behind a quote is one or the other. -/
theorem literal_of_spells (isQ : isQuote quote = true) :
    (∀ (here : Position) (value : String) (body rest : List Char),
        Spells quote (quote :: rest) value.toList body →
          step here quote (body ++ quote :: rest) =
            .ok (some ⟨.text value, here, (here.advanceAll (quote :: (body ++ [quote]))).line⟩,
              ⟨here.advanceAll (quote :: (body ++ [quote])), rest⟩)) ∧
      (∀ (here : Position) (value : String) (rest : List Char),
        step here '"' ((Declaration.escape value).toList ++ '"' :: rest) =
          .ok (some ⟨.text value, here,
              (here.advanceAll ('"' :: ((Declaration.escape value).toList ++ ['"']))).line⟩,
            ⟨here.advanceAll ('"' :: ((Declaration.escape value).toList ++ ['"'])), rest⟩)) ∧
      (∀ (source : String) (before : List Token) (here : Position) (text : List Char),
        Passes ⟨.first, source.toList⟩ before ⟨here, quote :: text⟩ → IsFaulty quote text →
          ∃ e, Declaration.parse source = .error e) ∧
      ∀ text,
        (∃ value body rest, text = body ++ quote :: rest ∧
          Spells quote (quote :: rest) value body) ∨ IsFaulty quote text := by
  refine ⟨?_, ?_, ?_, spells_or_isFaulty quote⟩
  · intro here value body rest spells
    exact step_of_spells isQ spells here
  · intro here value rest
    have spells : Spells '"' ('"' :: rest) value.toList (Declaration.escape value).toList := by
      rw [Declaration.escape, String.toList_ofList]
      exact spells_escapeChars value.toList ('"' :: rest)
    exact step_of_spells (by decide) spells here
  · intro source before here text passes faulty
    rcases step_of_isFaulty isQ faulty here with ⟨e, failed⟩
    exact ⟨e, passes.parse_eq_error failed⟩

/-- The inside of a literal in single quotes, with spellings of all kinds and two continued
lines. -/
def mixedBody : List Char :=
  ['"', '\\', 't', '\\', '\x27', '\\', 'x', '4', 'a', '\\', 'u', '0', '0', 'e', '9', '\\', '\r',
    '\n', '\\', 'u', '{', '0', '0', '4', 'A', '}', '\\', 'u', 'd', '8', '3', 'D', '\\', 'u', 'D',
    'E', '0', '0', '\\', '\n', '\\', '0']

/-- The text that it spells. -/
def mixedText : List Char := ['"', '\t', '\x27', 'J', 'é', 'J', '😀', '\x00']

theorem spells_mixedBody (rest : List Char) :
    Spells '\x27' ('\x27' :: rest) mixedText mixedBody := by
  refine .cons (.plain (by decide) (by decide) (by decide)) ?_
  refine .cons (.short (by decide)) (.cons (.itself (by decide)) ?_)
  -- The digits are given where the elaborator cannot find them.
  refine @Spells.cons _ _ _ ['\\', 'x', '4', 'a'] _ _ (.twoDigits rfl (by decide)) ?_
  refine @Spells.cons _ _ _ ['\\', 'u', '0', '0', 'e', '9'] _ _ (.fourDigits rfl (by decide)) ?_
  refine .cons .continuedBoth ?_
  have braces (behind : List Char) : Element '\x27' (some 'J')
      ('\\' :: 'u' :: '{' :: (['0', '0', '4', 'A'] ++ ['}'])) behind :=
    .braces (by decide) (by decide)
  refine .cons (braces _) ?_
  have pair (behind : List Char) : Element '\x27' (some '😀')
      ('\\' :: 'u' :: (['d', '8', '3', 'D'] ++ '\\' :: 'u' :: ['D', 'E', '0', '0'])) behind :=
    .pair (by decide) rfl rfl (by decide) (by decide)
  refine .cons (pair _) (.cons (.continued (by decide)) (.cons (.zero ?_) .nil))
  rintro _ ⟨⟩
  decide

/-- A type whose literal holds half of a surrogate pair. -/
def loneSource : String := "type A='\\ud83d';"

theorem literal_of_spells_mixed :
    isQuote '\x27' = true ∧
      Spells '\x27' ['\x27', ';'] mixedText mixedBody ∧
      step .first '\x27' (mixedBody ++ ['\x27', ';']) =
        .ok (some ⟨.text (String.ofList mixedText), .first, 3⟩, ⟨⟨3, 4⟩, [';']⟩) ∧
      ∃ e, Declaration.parse loneSource = .error e := by
  have isQ : isQuote '\x27' = true := by decide
  have spells := spells_mixedBody [';']
  rcases literal_of_spells isQ with ⟨reads, -, fails, -⟩
  have value : (String.ofList mixedText).toList = mixedText := String.toList_ofList
  refine ⟨isQ, spells, reads .first _ _ _ (value.symm ▸ spells), ?_⟩
  have faulty : IsFaulty '\x27' "\\ud83d';".toList := by
    refine ⟨[], [], _, rfl, .nil, ?_⟩
    have number : hexNumber? ['d', '8', '3', 'd'] = some 0xd83d := by decide
    have alone : ¬ HasLowHalf ['\x27', ';'] := by
      rintro ⟨digits, rest, n, ⟨⟩, -⟩
    exact .loneHigh rfl number (by decide) (by decide) alone
  have passes : Passes ⟨.first, loneSource.toList⟩
      [⟨.word "type", ⟨1, 1⟩, 1⟩, ⟨.word "A", ⟨1, 6⟩, 1⟩, ⟨.mark '=', ⟨1, 7⟩, 1⟩]
      ⟨⟨1, 8⟩, '\x27' :: "\\ud83d';".toList⟩ := by
    refine @Passes.step _ _ _ (some _) _ _ _ rfl ?_
    refine @Passes.step _ _ _ none _ _ _ rfl ?_
    refine @Passes.step _ _ _ (some _) _ _ _ rfl ?_
    exact @Passes.step _ _ _ (some _) _ _ _ rfl (.refl _)
  exact fails _ _ _ _ passes faulty

end Lexer

end HyperSchema
