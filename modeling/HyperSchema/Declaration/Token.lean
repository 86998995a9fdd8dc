import HyperSchema.Text.Uppercase
import HyperSchema.Text.Hex

/-!
# Tokens

The words and signs of a declaration file, with their places.  This file defines:

* `Position` and `Position.advance`, the place behind a character;
* `Cursor`, a place and the text that starts there, and `Cursor.Reaches`, the cursors behind it;
* `Lexeme` and `Token`;
* `SyntaxFault`, what can be wrong with a text, and `SyntaxError`, a fault at a place.

Lines and columns count from one; a line feed ends a line, every other character takes one column.
-/

namespace HyperSchema

/-! ## Places -/

/-- A place in a text. -/
structure Position where
  line : Nat
  column : Nat
deriving DecidableEq, Repr

namespace Position

/-- The place of the first character. -/
def first : Position := ⟨1, 1⟩

/-- The place behind a character. -/
def advance (here : Position) (c : Char) : Position :=
  if c = '\n' then ⟨here.line + 1, 1⟩ else ⟨here.line, here.column + 1⟩

/-- The place behind a text. -/
def advanceAll (here : Position) (text : List Char) : Position :=
  text.foldl advance here

@[simp] theorem advanceAll_nil (here : Position) : here.advanceAll [] = here := rfl

@[simp] theorem advanceAll_cons (here : Position) (c : Char) (text : List Char) :
    here.advanceAll (c :: text) = (here.advance c).advanceAll text := rfl

theorem advanceAll_append (here : Position) (a b : List Char) :
    here.advanceAll (a ++ b) = (here.advanceAll a).advanceAll b := by
  simp [advanceAll]

end Position

/-- A place and the text that starts there. -/
structure Cursor where
  position : Position
  text : List Char
deriving Repr

namespace Cursor

/-- The cursor behind the first character. -/
def next (here : Position) (c : Char) (rest : List Char) : Cursor :=
  ⟨here.advance c, rest⟩

/-- A cursor reaches another if some characters lead from it to the other. -/
def Reaches (a b : Cursor) : Prop :=
  ∃ passed, a.text = passed ++ b.text ∧ b.position = a.position.advanceAll passed

theorem Reaches.refl (a : Cursor) : Reaches a a := ⟨[], rfl, rfl⟩

theorem Reaches.trans {a b c : Cursor} (ab : Reaches a b) (bc : Reaches b c) : Reaches a c := by
  obtain ⟨p, hp, hp'⟩ := ab
  obtain ⟨q, hq, hq'⟩ := bc
  exact ⟨p ++ q, by rw [hp, hq, List.append_assoc],
    by rw [hq', hp', Position.advanceAll_append]⟩

theorem Reaches.step (here : Position) (c : Char) (rest : List Char) :
    Reaches ⟨here, c :: rest⟩ ⟨here.advance c, rest⟩ :=
  ⟨[c], rfl, rfl⟩

/-- A cursor behind the first character is behind the whole. -/
theorem Reaches.cons {here : Position} {c : Char} {rest : List Char} {b : Cursor}
    (h : Reaches ⟨here.advance c, rest⟩ b) : Reaches ⟨here, c :: rest⟩ b :=
  (Reaches.step here c rest).trans h

theorem Reaches.length_le {a b : Cursor} (h : Reaches a b) : b.text.length ≤ a.text.length := by
  obtain ⟨passed, hp, _⟩ := h
  rw [hp, List.length_append]
  omega

end Cursor

/-! ## Tokens -/

/-- What a token is. -/
inductive Lexeme where
  /-- An identifier or keyword. -/
  | word (name : String)
  /-- A string literal, decoded. -/
  | text (value : String)
  /-- A number literal, as it is written. -/
  | number (spelling : String)
  /-- A sign of one character. -/
  | mark (sign : Char)
  /-- Three points. -/
  | ellipsis
  /-- A documentation comment, without its stars. -/
  | doc (text : String)
deriving DecidableEq, Repr

/-- A token with the place where it starts and the line on which it ends. -/
structure Token where
  lexeme : Lexeme
  start : Position
  endLine : Nat
deriving DecidableEq, Repr

/-! ## Faults -/

/-- What can be wrong with a text. -/
inductive SyntaxFault where
  | unexpectedSlash
  | brokenEllipsis
  | unexpectedCharacter (c : Char)
  | unterminatedComment
  | unterminatedString
  | octalEscape
  | invalidHexEscape
  | invalidCodePoint (code : Nat)
  | escapeOutOfRange
  | invalidUnicodeEscape
  | unpairedSurrogate
  | expectedMark (sign : Char)
  | expectedIdentifier
  | expectedDeclaration
  | expectedMemberEnd
  | expectedPropertyName
  | expectedNumber
  | expectedType
  | unexpectedEnd
  | nestingTooDeep
deriving DecidableEq, Repr

/-- The wording of a fault. -/
def SyntaxFault.message : SyntaxFault → String
  | unexpectedSlash => "unexpected '/'"
  | brokenEllipsis => "expected '...'"
  | unexpectedCharacter c => "unexpected character '" ++ c.toString ++ "'"
  | unterminatedComment => "unterminated comment"
  | unterminatedString => "unterminated string literal"
  | octalEscape => "octal escape sequences are not supported"
  | invalidHexEscape => "invalid hexadecimal escape"
  | invalidCodePoint code =>
      let digits := (Text.hex code).map Text.upperAscii
      "invalid code point U+" ++ String.ofList (List.replicate (4 - digits.length) '0' ++ digits)
  | escapeOutOfRange => "unicode escape out of range"
  | invalidUnicodeEscape => "invalid unicode escape"
  | unpairedSurrogate => "unpaired surrogate in unicode escape"
  | expectedMark sign => "expected '" ++ sign.toString ++ "'"
  | expectedIdentifier => "expected identifier"
  | expectedDeclaration => "expected 'interface' or 'type' declaration"
  | expectedMemberEnd => "expected ';' or '\x7d' after member"
  | expectedPropertyName => "expected property name"
  | expectedNumber => "expected number after '-'"
  | expectedType => "expected a type"
  | unexpectedEnd => "unexpected end of input, expected a type"
  | nestingTooDeep => "types are nested too deeply"

/-- A fault at a place. -/
structure SyntaxError where
  position : Position
  fault : SyntaxFault
deriving DecidableEq, Repr

end HyperSchema
