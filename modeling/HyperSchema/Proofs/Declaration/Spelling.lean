import HyperSchema.Declaration.Spelling
import HyperSchema.Proofs.Declaration.Elements
import HyperSchema.Proofs.Declaration.Pieces
import HyperSchema.Proofs.Declaration.Printable

/-!
# Spelling — every kind of token is read as what it is

For each kind of token, the condition under which its spelling is read as that token:

* `Piece.reads_mark`, `Piece.reads_point`, `Piece.reads_ellipsis` for signs;
* `Piece.reads_word` and `Piece.reads_number`, which need that the next character does not go on;
* `Lexer.spells_escapeChars` and `Piece.reads_text` for string literals.

`Piece.Stops` is the condition on the next character that suits words and numbers alike.
-/

namespace HyperSchema

/-! ## Classes of characters -/

namespace Lexer

/-- The codes of the blank characters. -/
def blankCodes : List Nat :=
  [9, 10, 11, 12, 13, 32, 0x85, 0xa0, 0x1680, 0x2000, 0x2001, 0x2002, 0x2003, 0x2004, 0x2005,
    0x2006, 0x2007, 0x2008, 0x2009, 0x200a, 0x2028, 0x2029, 0x202f, 0x205f, 0x3000]

theorem mem_blankCodes {c : Char} (h : Text.isBlank c = true) : c.toNat ∈ blankCodes := by
  simp only [Text.isBlank, Bool.or_eq_true, beq_iff_eq, Bool.and_eq_true, decide_eq_true_eq] at h
  simp only [blankCodes, List.mem_cons, List.not_mem_nil, or_false]
  omega

theorem exists_digit {c : Char} (h : c.isDigit = true) : ∃ n < 10, c = Char.ofNat (48 + n) := by
  have range : 48 ≤ c.toNat ∧ c.toNat ≤ 57 := by
    simpa [Char.isDigit, UInt32.le_iff_toNat_le] using h
  exact Text.exists_ofNat_add range.1 (Nat.lt_succ_of_le range.2)

/-- No word starts with a blank, a digit or a sign that starts another token. -/
theorem startsWord_apart {c : Char} (h : startsWord c = true) :
    Text.isBlank c = false ∧ c ≠ '/' ∧ isQuote c = false ∧ c ≠ '.' ∧ c.isDigit = false := by
  -- Blanks and digits are finitely many, so they can be tried one by one.
  have blanks : ∀ n ∈ blankCodes, startsWord (Char.ofNat n) = false := by decide +kernel
  have digits : ∀ n < 10, startsWord (Char.ofNat (48 + n)) = false := by decide +kernel
  refine ⟨?_, ?_, ?_, ?_, ?_⟩
  · cases blank : Text.isBlank c with
    | false => rfl
    | true =>
        have := blanks _ (mem_blankCodes blank)
        rw [Char.ofNat_toNat, h] at this
        cases this
  · rintro rfl
    exact absurd h (by decide +kernel)
  · cases quote : isQuote c with
    | false => rfl
    | true =>
        have : c = '"' ∨ c = '\x27' := by simpa [isQuote] using quote
        rcases this with rfl | rfl
        · exact absurd h (by decide +kernel)
        · exact absurd h (by decide +kernel)
  · rintro rfl
    exact absurd h (by decide +kernel)
  · cases digit : c.isDigit with
    | false => rfl
    | true =>
        rcases exists_digit digit with ⟨n, few, rfl⟩
        rw [digits n few] at h
        cases h

/-- No number starts with a blank or a sign that starts another token. -/
theorem isDigit_apart {c : Char} (h : c.isDigit = true) :
    Text.isBlank c = false ∧ c ≠ '/' ∧ isQuote c = false ∧ c ≠ '.' := by
  have digits : ∀ n < 10, Text.isBlank (Char.ofNat (48 + n)) = false ∧ Char.ofNat (48 + n) ≠ '/' ∧
      isQuote (Char.ofNat (48 + n)) = false ∧ Char.ofNat (48 + n) ≠ '.' := by decide
  rcases exists_digit h with ⟨n, few, rfl⟩
  exact digits n few

theorem marks_apart {c : Char} (h : c ∈ marks) :
    Text.isBlank c = false ∧ c ≠ '/' ∧ isQuote c = false ∧ c ≠ '.' ∧ c.isDigit = false ∧
      startsWord c = false := by
  have all : (marks.all fun sign => !Text.isBlank sign && sign != '/' && !isQuote sign &&
      sign != '.' && !sign.isDigit && !startsWord sign) = true := by decide +kernel
  simpa [and_assoc] using List.all_eq_true.1 all c h

/-- The signs and blanks that the printer writes behind a word or a number. -/
def stoppers : List Char :=
  [' ', '\n', '<', '>', ',', '[', ']', ')', ';', ':', '?', '}', '.']

theorem stopper_ends {c : Char} (h : c ∈ stoppers) :
    continuesWord c = false ∧ (c ≠ '.' → continuesNumber c = false) := by
  have all : (stoppers.all fun c =>
      !continuesWord c && (c == '.' || !continuesNumber c)) = true := by decide +kernel
  have ends := List.all_eq_true.1 all c h
  simp only [Bool.and_eq_true, Bool.not_eq_true', Bool.or_eq_true, beq_iff_eq] at ends
  exact ⟨ends.1, ends.2.resolve_left⟩

/-- The words that the printer writes whatever it prints. -/
def fixedWords : List String :=
  Keyword.all.map Keyword.name ++
    ["true", "false", "keyof", "extends", "readonly", "export", "interface", "type"]

theorem isIdentifier_fixedWord {word : String} (h : word ∈ fixedWords) :
    isIdentifier word.toList = true := by
  have all : (fixedWords.all fun word => isIdentifier word.toList) = true := by decide +kernel
  exact List.all_eq_true.1 all word h

/-- The longest run of characters with a property is what has the property, if the next character
has it not. -/
theorem takeWhile_append {p : Char → Bool} {taken rest : List Char} (all : ∀ c ∈ taken, p c = true)
    (stop : ∀ c ∈ rest.head?, p c = false) (here : Position) :
    takeWhile p here (taken ++ rest) = (taken, ⟨here.advanceAll taken, rest⟩) := by
  induction taken generalizing here with
  | nil =>
      cases rest with
      | nil => rfl
      | cons c rest =>
          have : p c = false := stop c rfl
          simp [takeWhile, this]
  | cons c taken ih =>
      have hc : p c = true := all c List.mem_cons_self
      have tail := ih (fun d hd => all d (List.mem_cons_of_mem c hd)) (here.advance c)
      simp [takeWhile, hc, tail]

end Lexer

/-! ## Signs, words and numbers -/

namespace Piece

/-- The next character continues neither a word nor a number. -/
def Stops (rest : List Char) : Prop :=
  ∀ c ∈ rest.head?, Lexer.continuesWord c = false ∧ Lexer.continuesNumber c = false

theorem reads_gap {text : List Char} (h : text.all Text.isBlank = true) (rest : List Char) :
    (gap text).Reads rest :=
  List.all_eq_true.1 h

theorem reads_mark {sign : Char} (h : sign ∈ Lexer.marks) (rest : List Char) :
    (mark sign).Reads rest := by
  obtain ⟨blank, slash, quote, point, digit, word⟩ := Lexer.marks_apart h
  refine ⟨sign, [], rfl, ?_⟩
  intro here
  simp [Lexer.step, blank, slash, quote, point, digit, word, h, Lexer.token]

theorem reads_point {rest : List Char} (h : rest.head? ≠ some '.') : (mark '.').Reads rest := by
  refine ⟨'.', [], rfl, ?_⟩
  intro here
  have blank : Text.isBlank '.' = false := by decide
  have quote : Lexer.isQuote '.' = false := by decide
  cases rest with
  | nil => simp [Lexer.step, blank, quote, Lexer.point, Lexer.token]
  | cons c rest =>
      have other : c ≠ '.' := by simpa using h
      simp [Lexer.step, blank, quote, Lexer.point, Lexer.token, other]

theorem reads_ellipsis (rest : List Char) : (token .ellipsis ['.', '.', '.']).Reads rest := by
  refine ⟨'.', ['.', '.'], rfl, ?_⟩
  intro here
  have blank : Text.isBlank '.' = false := by decide
  have quote : Lexer.isQuote '.' = false := by decide
  simp [Lexer.step, blank, quote, Lexer.point, Lexer.token]

theorem reads_word {name : String} {rest : List Char} (h : Lexer.isIdentifier name.toList = true)
    (stop : ∀ c ∈ rest.head?, Lexer.continuesWord c = false) : (word name).Reads rest := by
  cases hn : name.toList with
  | nil =>
      rw [hn] at h
      cases h
  | cons first others =>
      rw [hn] at h
      obtain ⟨starts, continues⟩ := Bool.and_eq_true_iff.1 h
      obtain ⟨blank, slash, quote, point, digit⟩ := Lexer.startsWord_apart starts
      have whole : String.ofList (first :: others) = name := by rw [← hn, String.ofList_toList]
      refine ⟨first, others, hn, ?_⟩
      intro here
      have taken := Lexer.takeWhile_append (List.all_eq_true.1 continues) stop (here.advance first)
      simp [Lexer.step, blank, slash, quote, point, digit, starts, taken, Lexer.token, whole, hn]

theorem reads_number {digits rest : List Char} (h : Lexer.isNumeral digits = true)
    (stop : ∀ c ∈ rest.head?, Lexer.continuesNumber c = false) :
    (token (.number (String.ofList digits)) digits).Reads rest := by
  cases digits with
  | nil => cases h
  | cons first others =>
      obtain ⟨digit, continues⟩ := Bool.and_eq_true_iff.1 h
      obtain ⟨blank, slash, quote, point⟩ := Lexer.isDigit_apart digit
      refine ⟨first, others, rfl, ?_⟩
      intro here
      have taken := Lexer.takeWhile_append (List.all_eq_true.1 continues) stop (here.advance first)
      simp [Lexer.step, blank, slash, quote, point, digit, taken, Lexer.token]

end Piece

/-! ## String literals -/

namespace Lexer

/-- A character is written as an element, which is not the closing quote. -/
theorem element_escapeChar (c : Char) (behind : List Char) :
    Element '"' (some c) (Declaration.escapeChar c) behind := by
  unfold Declaration.escapeChar
  -- A backslash and a quote stand for themselves behind a backslash.
  split
  · rename_i h
    obtain rfl : c = '\\' := by simpa using h
    exact .itself (by decide)
  split
  · rename_i h
    obtain rfl : c = '"' := by simpa using h
    exact .itself (by decide)
  split
  · rename_i h
    obtain rfl : c = '\n' := by simpa using h
    exact .short (by decide)
  split
  · rename_i h
    obtain rfl : c = '\r' := by simpa using h
    exact .short (by decide)
  split
  · rename_i h
    obtain rfl : c = '\t' := by simpa using h
    exact .short (by decide)
  split
  · rename_i h
    obtain rfl : c = '\x08' := by simpa using h
    exact .short (by decide)
  split
  · rename_i h
    obtain rfl : c = '\x0b' := by simpa using h
    exact .short (by decide)
  split
  · rename_i h
    obtain rfl : c = '\x0c' := by simpa using h
    exact .short (by decide)
  split
  · -- Control characters and line separators have codes of four digits.
    rename_i h
    have small : c.toNat < 16 ^ 4 := by
      simp only [Text.isControl, Bool.or_eq_true, Bool.and_eq_true, decide_eq_true_eq,
        beq_iff_eq] at h
      omega
    exact .fourDigits (Text.length_hexPadded 4 c.toNat) (Text.hexNumber?_hexPadded small)
  · rename_i backslash quote feed _ _ _ _ _ _
    exact .plain (by simpa using feed) (by simpa using backslash) (by simpa using quote)

/-- What the printer writes between the quotes spells the text. -/
theorem spells_escapeChars (text behind : List Char) :
    Spells '"' behind text (text.flatMap Declaration.escapeChar) := by
  induction text with
  | nil => exact .nil
  | cons c text ih => exact .cons (element_escapeChar c _) ih

end Lexer

namespace Piece

/-- A string literal in double quotes. -/
def text (value : String) : Piece :=
  token (.text value) (Declaration.stringLiteral value).toList

theorem stringLiteral_toList (value : String) :
    (Declaration.stringLiteral value).toList =
      '"' :: (value.toList.flatMap Declaration.escapeChar ++ ['"']) := by
  simp [Declaration.stringLiteral, Declaration.escape]

theorem reads_text (value : String) (rest : List Char) : (text value).Reads rest := by
  refine ⟨'"', value.toList.flatMap Declaration.escapeChar ++ ['"'], stringLiteral_toList value, ?_⟩
  intro here
  rw [stringLiteral_toList, List.append_assoc]
  exact Lexer.step_of_spells (by decide) (Lexer.spells_escapeChars value.toList ('"' :: rest)) here

end Piece

end HyperSchema
