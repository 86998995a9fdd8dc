import HyperSchema.Declaration.DocText
import HyperSchema.Declaration.Token
import HyperSchema.Text.Numeric

/-!
# Reading tokens

The tokens of a declaration file.  This file defines:

* `Lexer.takeWhile`, `Lexer.commentBody`, `Lexer.escape` and `Lexer.stringBody`, the parts of
  tokens;
* `Lexer.step`, which reads one token, one comment or one blank;
* `Lexer.tokens`, all tokens of a text;
* for each part the fact that the cursor behind it is reached from the one before it.

Blanks and comments separate tokens; only documentation comments are tokens themselves.
-/

namespace HyperSchema.Lexer

/-- A reader of a part: its value and the cursor behind it. -/
abbrev Result (α : Type) := Except SyntaxError (α × Cursor)

/-- A fault at a place. -/
def fail {α : Type} (here : Position) (fault : SyntaxFault) : Except SyntaxError α :=
  .error ⟨here, fault⟩

/-! ## Runs of characters -/

/-- The longest run of characters with a property. -/
def takeWhile (p : Char → Bool) : Position → List Char → List Char × Cursor
  | here, [] => ([], ⟨here, []⟩)
  | here, c :: rest =>
      if p c then
        let (taken, cursor) := takeWhile p (here.advance c) rest
        (c :: taken, cursor)
      else ([], ⟨here, c :: rest⟩)

theorem takeWhile_reaches (p : Char → Bool) (here : Position) (text : List Char) :
    Cursor.Reaches ⟨here, text⟩ (takeWhile p here text).2 := by
  induction text generalizing here with
  | nil => exact .refl _
  | cons c rest ih =>
    rw [takeWhile]
    split
    · exact (ih (here.advance c)).cons
    · exact .refl _

/-- The inside of a block comment, and the cursor behind its end. -/
def commentBody : Position → List Char → Result (List Char)
  | here, [] => fail here .unterminatedComment
  | here, '*' :: '/' :: rest => .ok ([], ⟨(here.advance '*').advance '/', rest⟩)
  | here, c :: rest =>
      match commentBody (here.advance c) rest with
      | .ok (body, cursor) => .ok (c :: body, cursor)
      | .error e => .error e

theorem commentBody_reaches {here : Position} {text body : List Char} {next : Cursor}
    (h : commentBody here text = .ok (body, next)) : Cursor.Reaches ⟨here, text⟩ next := by
  fun_induction commentBody here text generalizing body with
  | case1 => simp [fail] at h
  | case2 here rest =>
    cases h
    exact (Cursor.Reaches.step _ _ _).cons
  | case3 here c rest _ body' next' heq ih =>
    simp only [Except.ok.injEq, Prod.mk.injEq] at h
    obtain ⟨rfl, rfl⟩ := h
    exact (ih heq).cons
  | case4 here c rest _ e heq => simp at h

/-! ## Escapes -/

/-- The character with a code. -/
def scalar (here : Position) (code : Nat) : Except SyntaxError Char :=
  if code.isValidChar then .ok (Char.ofNat code) else fail here (.invalidCodePoint code)

/-- A number of hexadecimal digits, after those read so far. -/
def hexDigits : Nat → Nat → Position → List Char → Result Nat
  | 0, code, here, text => .ok (code, ⟨here, text⟩)
  | _ + 1, _, here, [] => fail here .invalidHexEscape
  | count + 1, code, here, c :: rest =>
      match Text.hexValue? c with
      | some digit => hexDigits count (code * 16 + digit) (here.advance c) rest
      | none => fail here .invalidHexEscape

theorem hexDigits_reaches {count code : Nat} {here : Position} {text : List Char} {value : Nat}
    {next : Cursor} (h : hexDigits count code here text = .ok (value, next)) :
    Cursor.Reaches ⟨here, text⟩ next := by
  induction count generalizing code here text with
  | zero =>
    simp only [hexDigits, Except.ok.injEq, Prod.mk.injEq] at h
    rw [← h.2]
    exact .refl _
  | succ count ih =>
    cases text with
    | nil => simp [hexDigits, fail] at h
    | cons c rest =>
      rw [hexDigits] at h
      split at h
      · exact (ih h).cons
      · simp [fail] at h

/-- The digits between braces: the code, how many there are, and the cursor behind the last.  A code
beyond 32 bits is a fault. -/
def bracedDigits : Nat → Nat → Position → List Char → Result (Nat × Nat)
  | code, count, here, [] => .ok ((code, count), ⟨here, []⟩)
  | code, count, here, c :: rest =>
      match Text.hexValue? c with
      | some digit =>
          let code := code * 16 + digit
          let here := here.advance c
          -- The bound is checked digit by digit, so leading zeros are free.
          if code < Nat.pow 2 32 then bracedDigits code (count + 1) here rest
          else fail here .escapeOutOfRange
      | none => .ok ((code, count), ⟨here, c :: rest⟩)

theorem bracedDigits_reaches {code count : Nat} {here : Position} {text : List Char}
    {value : Nat × Nat} {next : Cursor}
    (h : bracedDigits code count here text = .ok (value, next)) :
    Cursor.Reaches ⟨here, text⟩ next := by
  induction text generalizing code count here with
  | nil =>
    simp only [bracedDigits, Except.ok.injEq, Prod.mk.injEq] at h
    rw [← h.2]
    exact .refl _
  | cons c rest ih =>
    rw [bracedDigits] at h
    split at h
    · dsimp only at h
      split at h
      · exact (ih h).cons
      · simp [fail] at h
    · simp only [Except.ok.injEq, Prod.mk.injEq] at h
      rw [← h.2]
      exact .refl _

/-- The character in braces. -/
def bracedEscape (here : Position) (text : List Char) :
    Except SyntaxError (Char × Cursor) := do
  let ((code, count), next) ← bracedDigits 0 0 here text
  if count = 0 then fail next.position .invalidUnicodeEscape
  else
    match next.text with
    | [] => fail next.position .invalidUnicodeEscape
    | c :: rest =>
        let after := next.position.advance c
        if c = '}' then
          let decoded ← scalar after code
          .ok (decoded, ⟨after, rest⟩)
        else fail after .invalidUnicodeEscape

theorem bracedEscape_reaches {here : Position} {text : List Char} {c : Char} {next : Cursor}
    (h : bracedEscape here text = .ok (c, next)) : Cursor.Reaches ⟨here, text⟩ next := by
  unfold bracedEscape at h
  cases hd : bracedDigits 0 0 here text with
  | error e => simp [hd, bind, Except.bind] at h
  | ok found =>
    obtain ⟨⟨code, count⟩, behind, rest⟩ := found
    have first := bracedDigits_reaches hd
    simp only [hd, bind, Except.bind] at h
    split at h
    · simp [fail] at h
    · cases rest with
      | nil => simp [fail] at h
      | cons d rest =>
        simp only at h
        split at h
        · cases hs : scalar (behind.advance d) code with
          | error e => simp [hs] at h
          | ok decoded =>
            simp only [hs, Except.ok.injEq, Prod.mk.injEq] at h
            rw [← h.2]
            exact first.trans (.step _ _ _)
        · simp [fail] at h

/-- A sign that a surrogate pair needs. -/
def pairSign (sign : Char) (cursor : Cursor) : Except SyntaxError Cursor :=
  match cursor.text with
  | [] => fail cursor.position .unpairedSurrogate
  | c :: rest =>
      let after := cursor.position.advance c
      if c = sign then .ok ⟨after, rest⟩ else fail after .unpairedSurrogate

theorem pairSign_reaches {sign : Char} {cursor next : Cursor}
    (h : pairSign sign cursor = .ok next) :
    cursor.Reaches next := by
  obtain ⟨here, text⟩ := cursor
  cases text with
  | nil => simp [pairSign, fail] at h
  | cons c rest =>
    simp only [pairSign] at h
    split at h
    · cases h
      exact .step _ _ _
    · simp [fail] at h

/-- The first half of a surrogate pair. -/
def isHighSurrogate (code : Nat) : Bool := 0xd800 ≤ code && code < 0xdc00

/-- The second half of a surrogate pair. -/
def isLowSurrogate (code : Nat) : Bool := 0xdc00 ≤ code && code < 0xe000

/-- The code of a surrogate pair. -/
def joinSurrogates (high low : Nat) : Nat := 0x10000 + (high - 0xd800) * 1024 + (low - 0xdc00)

/-- The character with a code, read before a cursor. -/
def scalarAt (next : Cursor) (code : Nat) : Except SyntaxError (Char × Cursor) :=
  match scalar next.position code with
  | .ok decoded => .ok (decoded, next)
  | .error e => .error e

theorem scalarAt_reaches {a cursor next : Cursor} {code : Nat} {c : Char}
    (reached : a.Reaches cursor) (h : scalarAt cursor code = .ok (c, next)) : a.Reaches next := by
  unfold scalarAt at h
  split at h
  · simp only [Except.ok.injEq, Prod.mk.injEq] at h
    exact h.2 ▸ reached
  · cases h

/-- The second half of a surrogate pair, and the character of the pair. -/
def surrogatePair (high : Nat) (next : Cursor) : Except SyntaxError (Char × Cursor) := do
  let next ← pairSign '\\' next
  let next ← pairSign 'u' next
  let (low, next) ← hexDigits 4 0 next.position next.text
  if isLowSurrogate low then scalarAt next (joinSurrogates high low)
  else fail next.position .unpairedSurrogate

theorem surrogatePair_reaches {high : Nat} {cursor next : Cursor} {c : Char}
    (h : surrogatePair high cursor = .ok (c, next)) : cursor.Reaches next := by
  unfold surrogatePair at h
  cases h₂ : pairSign '\\' cursor with
  | error e => simp [h₂, bind, Except.bind] at h
  | ok cur₂ =>
    have r₂ := pairSign_reaches h₂
    simp only [h₂, bind, Except.bind] at h
    cases h₃ : pairSign 'u' cur₂ with
    | error e => simp [h₃] at h
    | ok cur₃ =>
      have r₃ := r₂.trans (pairSign_reaches h₃)
      simp only [h₃] at h
      cases h₄ : hexDigits 4 0 cur₃.position cur₃.text with
      | error e => simp [h₄] at h
      | ok found =>
        obtain ⟨low, cur₄⟩ := found
        have r₄ := r₃.trans (hexDigits_reaches h₄)
        simp only [h₄] at h
        split at h
        · exact scalarAt_reaches r₄ h
        · simp [fail] at h

/-- The character of four digits, or of two times four digits that are a surrogate pair. -/
def fourDigitEscape (here : Position) (text : List Char) : Except SyntaxError (Char × Cursor) :=
  match hexDigits 4 0 here text with
  | .error e => .error e
  | .ok (code, next) =>
      if isHighSurrogate code then surrogatePair code next else scalarAt next code

theorem fourDigitEscape_reaches {here : Position} {text : List Char} {c : Char} {next : Cursor}
    (h : fourDigitEscape here text = .ok (c, next)) : Cursor.Reaches ⟨here, text⟩ next := by
  unfold fourDigitEscape at h
  split at h
  · cases h
  · rename_i code cursor h₁
    have reached := hexDigits_reaches h₁
    split at h
    · exact reached.trans (surrogatePair_reaches h)
    · exact scalarAt_reaches reached h

/-- The character behind `\u`. -/
def unicodeEscape (here : Position) (text : List Char) : Result Char :=
  match text with
  | '{' :: rest => bracedEscape (here.advance '{') rest
  | _ => fourDigitEscape here text

theorem unicodeEscape_reaches {here : Position} {text : List Char} {c : Char} {next : Cursor}
    (h : unicodeEscape here text = .ok (c, next)) : Cursor.Reaches ⟨here, text⟩ next := by
  unfold unicodeEscape at h
  split at h
  · exact (bracedEscape_reaches h).cons
  · exact fourDigitEscape_reaches h

/-- The character behind `\x`. -/
def hexEscape (here : Position) (text : List Char) : Except SyntaxError (Char × Cursor) :=
  match hexDigits 2 0 here text with
  | .error e => .error e
  | .ok (code, next) => scalarAt next code

theorem hexEscape_reaches {here : Position} {text : List Char} {c : Char} {next : Cursor}
    (h : hexEscape here text = .ok (c, next)) : Cursor.Reaches ⟨here, text⟩ next := by
  unfold hexEscape at h
  split at h
  · cases h
  · rename_i code cursor h₁
    exact scalarAt_reaches (hexDigits_reaches h₁) h

/-- The short escapes of one character. -/
def shortEscape? (c : Char) : Option Char :=
  match c with
  | 'n' => some '\n'
  | 't' => some '\t'
  | 'r' => some '\r'
  | 'b' => some '\x08'
  | 'f' => some '\x0c'
  | 'v' => some '\x0b'
  | _ => none

/-- Whether a text starts with an ASCII digit. -/
def startsWithDigit : List Char → Bool
  | c :: _ => c.isDigit
  | [] => false

/-- Whether a backslash before this character continues the literal on the next line. -/
def isLineEnd (c : Char) : Bool :=
  c == '\n' || c.toNat == 0x2028 || c.toNat == 0x2029

/-- The cursor behind a carriage return and the line feed that may follow it. -/
def behindReturn (here : Position) (text : List Char) : Cursor :=
  match text with
  | '\n' :: rest => ⟨here.advance '\n', rest⟩
  | _ => ⟨here, text⟩

theorem behindReturn_reaches (here : Position) (text : List Char) :
    Cursor.Reaches ⟨here, text⟩ (behindReturn here text) := by
  unfold behindReturn
  split
  · exact .step _ _ _
  · exact .refl _

/-- What stands behind a backslash: a character, or nothing where the line is continued. -/
def escape (here : Position) (text : List Char) : Result (Option Char) :=
  match text with
  | [] => fail here .unterminatedString
  | c :: rest =>
      let after := here.advance c
      match shortEscape? c with
      | some decoded => .ok (some decoded, ⟨after, rest⟩)
      | none =>
          -- A zero stands for itself only where no digit could make it an octal escape.
          if c == '0' && !startsWithDigit rest then .ok (some '\x00', ⟨after, rest⟩)
          else if '0' ≤ c && c ≤ '7' then fail after .octalEscape
          else if c == 'x' then (hexEscape after rest).map fun (d, next) => (some d, next)
          else if c == 'u' then (unicodeEscape after rest).map fun (d, next) => (some d, next)
          else if c == '\r' then .ok (none, behindReturn after rest)
          else if isLineEnd c then .ok (none, ⟨after, rest⟩)
          else .ok (some c, ⟨after, rest⟩)

theorem escape_reaches {here : Position} {text : List Char} {d : Option Char} {next : Cursor}
    (h : escape here text = .ok (d, next)) : Cursor.Reaches ⟨here, text⟩ next := by
  cases text with
  | nil => simp [escape, fail] at h
  | cons c rest =>
    have mapped {r : Result Char} (h : r.map (fun (d, next) => (some d, next)) = .ok (d, next)) :
        ∃ d, r = .ok (d, next) := by
      cases r with
      | error e => simp [Except.map] at h
      | ok found =>
        simp only [Except.map, Except.ok.injEq, Prod.mk.injEq] at h
        exact ⟨found.1, by rw [← h.2]⟩
    have one : ∀ {d' : Option Char},
        (Except.ok (d', (⟨here.advance c, rest⟩ : Cursor)) : Result (Option Char)) = .ok (d, next) →
          Cursor.Reaches ⟨here, c :: rest⟩ next := by
      intro d' h
      simp only [Except.ok.injEq, Prod.mk.injEq] at h
      rw [← h.2]
      exact .step _ _ _
    rw [escape] at h
    -- One case for each kind of escape; what a case leaves is what its own reader leaves.
    split at h
    · exact one h
    · split at h
      · exact one h
      split at h
      · simp [fail] at h
      split at h
      · obtain ⟨d', hd⟩ := mapped h
        exact (hexEscape_reaches hd).cons
      split at h
      · obtain ⟨d', hd⟩ := mapped h
        exact (unicodeEscape_reaches hd).cons
      split at h
      · simp only [Except.ok.injEq, Prod.mk.injEq] at h
        rw [← h.2]
        exact (behindReturn_reaches _ _).cons
      split at h
      · exact one h
      · exact one h

/-! ## Strings -/

/-- The inside of a string literal, and the cursor behind its closing quote. -/
def stringBody (quote : Char) (here : Position) (text : List Char) : Result (List Char) :=
  match text with
  | [] => fail here .unterminatedString
  | c :: rest =>
      let after := here.advance c
      -- A line feed ends the line before the literal is closed; a lone carriage return does not.
      if c = '\n' then fail after .unterminatedString
      else if c = '\\' then
        match _h : escape after rest with
        | .error e => .error e
        | .ok (decoded, next) =>
            match stringBody quote next.position next.text with
            | .ok (value, next) => .ok (decoded.toList ++ value, next)
            | .error e => .error e
      else if c = quote then .ok ([], ⟨after, rest⟩)
      else
        match stringBody quote after rest with
        | .ok (value, next) => .ok (c :: value, next)
        | .error e => .error e
termination_by text.length
decreasing_by
  · have := (escape_reaches _h).length_le
    simp only [List.length_cons] at this ⊢
    omega
  · simp

theorem stringBody_reaches {quote : Char} {here : Position} {text value : List Char}
    {next : Cursor} (h : stringBody quote here text = .ok (value, next)) :
    Cursor.Reaches ⟨here, text⟩ next := by
  induction hn : text.length using Nat.strongRecOn generalizing here text value with
  | ind n ih =>
    subst hn
    cases text with
    | nil => rw [stringBody] at h; simp [fail] at h
    | cons c rest =>
      rw [stringBody] at h
      split at h
      · simp [fail] at h
      split at h
      · split at h
        · cases h
        · rename_i decoded cur he
          -- An escape has at least one sign, so the rest of the body is shorter.
          have first := escape_reaches he
          split at h
          · rename_i value' next' hs
            simp only [Except.ok.injEq, Prod.mk.injEq] at h
            obtain ⟨_, rfl⟩ := h
            have shorter : cur.text.length < (c :: rest).length := by
              have := first.length_le
              simp only [List.length_cons] at this ⊢
              omega
            exact first.cons.trans (ih _ shorter hs rfl)
          · cases h
      split at h
      · simp only [Except.ok.injEq, Prod.mk.injEq] at h
        rw [← h.2]
        exact .step _ _ _
      · split at h
        · rename_i value' next' hs
          simp only [Except.ok.injEq, Prod.mk.injEq] at h
          obtain ⟨_, rfl⟩ := h
          exact (ih rest.length (by simp) hs rfl).cons
        · cases h

/-! ## Tokens -/

/-- A character inside a number behind its first digit. -/
def continuesNumber (c : Char) : Bool :=
  c.isAlphanum || c == '.' || c == '_'

/-- A character that may start a word. -/
def startsWord (c : Char) : Bool :=
  Text.isAlphabetic c || c == '_' || c == '$'

/-- A character inside a word. -/
def continuesWord (c : Char) : Bool :=
  Text.isAlphanumeric c || c == '_' || c == '$'

/-- The signs of one character, the point excepted. -/
def marks : List Char :=
  ['{', '}', '(', ')', '[', ']', '<', '>', ';', ',', ':', '?', '|', '&', '=', '-']

/-- The opening and closing signs of strings. -/
def isQuote (c : Char) : Bool :=
  c == '"' || c == '\x27'

/-- A token that starts here and ends before a cursor. -/
def token (start : Position) (lexeme : Lexeme) (next : Cursor) : Option Token × Cursor :=
  (some ⟨lexeme, start, next.position.line⟩, next)

/-- What a block comment gives: a documentation comment is a token if a second star follows the
first and is not part of the end. -/
def comment (start : Position) (body : List Char) (next : Cursor) : Option Token × Cursor :=
  -- In `/**/` the second star belongs to the end, so the body is empty and no documentation.
  match body with
  | '*' :: text => token start (.doc (Declaration.docText text)) next
  | _ => (none, next)

/-- What starts with a slash. -/
def slash (start : Position) (after : Position) (rest : List Char) : Result (Option Token) :=
  match rest with
  | '/' :: _ => .ok (none, (takeWhile (· != '\n') after rest).2)
  | '*' :: more =>
      (commentBody (after.advance '*') more).map fun (body, next) => comment start body next
  | _ => fail after .unexpectedSlash

/-- What starts with a point. -/
def point (start : Position) (after : Position) (rest : List Char) : Result (Option Token) :=
  match rest with
  | '.' :: more =>
      let after := after.advance '.'
      match more with
      | [] => fail after .brokenEllipsis
      | c :: more =>
          let after := after.advance c
          if c = '.' then .ok (token start .ellipsis ⟨after, more⟩)
          else fail after .brokenEllipsis
  | _ => .ok (token start (.mark '.') ⟨after, rest⟩)

/-- Reads one token, one comment or one blank, which starts with a given character. -/
def step (here : Position) (c : Char) (rest : List Char) : Result (Option Token) :=
  let after := here.advance c
  if Text.isBlank c then .ok (none, ⟨after, rest⟩)
  else if c = '/' then slash here after rest
  else if isQuote c then
    (stringBody c after rest).map fun (value, next) =>
      token here (.text (String.ofList value)) next
  else if c = '.' then point here after rest
  else if c.isDigit then
    let (taken, next) := takeWhile continuesNumber after rest
    .ok (token here (.number (String.ofList (c :: taken))) next)
  else if startsWord c then
    let (taken, next) := takeWhile continuesWord after rest
    .ok (token here (.word (String.ofList (c :: taken))) next)
  else if marks.contains c then .ok (token here (.mark c) ⟨after, rest⟩)
  else fail here (.unexpectedCharacter c)

theorem slash_reaches {start after : Position} {rest : List Char} {found : Option Token}
    {next : Cursor} (h : slash start after rest = .ok (found, next)) :
    Cursor.Reaches ⟨after, rest⟩ next := by
  unfold slash at h
  split at h
  · cases h
    exact takeWhile_reaches _ _ _
  · rename_i more
    cases hb : commentBody (after.advance '*') more with
    | error e => simp [hb, Except.map] at h
    | ok read =>
      obtain ⟨body, cur⟩ := read
      have reached := (commentBody_reaches hb).cons
      simp only [hb, Except.map, Except.ok.injEq] at h
      have same : (comment start body cur).2 = cur := by
        unfold comment
        split <;> rfl
      rw [h] at same
      rw [show next = cur from same]
      exact reached
  · simp [fail] at h

theorem point_reaches {start after : Position} {rest : List Char} {found : Option Token}
    {next : Cursor} (h : point start after rest = .ok (found, next)) :
    Cursor.Reaches ⟨after, rest⟩ next := by
  unfold point at h
  split at h
  · dsimp only at h
    split at h
    · simp [fail] at h
    · split at h
      · cases h
        exact (Cursor.Reaches.step _ _ _).cons
      · simp [fail] at h
  · cases h
    exact .refl _

/-- The cursor behind a step is behind the first character of the step. -/
theorem step_reaches {here : Position} {c : Char} {rest : List Char} {found : Option Token}
    {next : Cursor} (h : step here c rest = .ok (found, next)) :
    Cursor.Reaches ⟨here.advance c, rest⟩ next := by
  unfold step at h
  dsimp only at h
  split at h
  · cases h
    exact .refl _
  split at h
  · exact slash_reaches h
  split at h
  · cases hs : stringBody c (here.advance c) rest with
    | error e => simp [hs, Except.map] at h
    | ok read =>
      obtain ⟨value, cur⟩ := read
      simp only [hs, Except.map, token, Except.ok.injEq, Prod.mk.injEq] at h
      rw [← h.2]
      exact stringBody_reaches hs
  split at h
  · exact point_reaches h
  split at h
  · simp only [token, Except.ok.injEq, Prod.mk.injEq] at h
    rw [← h.2]
    exact takeWhile_reaches _ _ _
  split at h
  · simp only [token, Except.ok.injEq, Prod.mk.injEq] at h
    rw [← h.2]
    exact takeWhile_reaches _ _ _
  split at h
  · cases h
    exact .refl _
  · simp [fail] at h

/-- The tokens from a cursor on. -/
def tokensFrom (here : Position) (text : List Char) : Except SyntaxError (List Token) :=
  match text with
  | [] => .ok []
  | c :: rest =>
      match _h : step here c rest with
      | .error e => .error e
      | .ok (found, next) =>
          match tokensFrom next.position next.text with
          | .ok more => .ok (found.toList ++ more)
          | .error e => .error e
termination_by text.length
decreasing_by
  have := (step_reaches _h).length_le
  simp only [List.length_cons] at this ⊢
  omega

/-- All tokens of a text. -/
def tokens (source : String) : Except SyntaxError (List Token) :=
  tokensFrom .first source.toList

end HyperSchema.Lexer
