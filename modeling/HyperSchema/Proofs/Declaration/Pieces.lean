import HyperSchema.Declaration.Lexer

/-!
# Pieces — texts cut at the borders of their tokens

A printed text is a row of blanks and spellings of tokens.  This file defines:

* `Piece`, blanks or the spelling of one token, and `Piece.spell`, the text of some pieces;
* `Piece.place`, the tokens of some pieces with their places;
* `Piece.Reads` and `Piece.AllRead`, the condition that every piece is read as what it is;
* `Piece.tokensFrom_spell`: under that condition the tokens of the text are those of the pieces.

Whether a piece is read as it should may depend on the character behind it, so both conditions take
the text that follows.
-/

namespace HyperSchema

/-- A piece of a printed text. -/
inductive Piece where
  | gap (text : List Char)
  | token (lexeme : Lexeme) (spelling : List Char)

namespace Piece

def chars : Piece → List Char
  | gap text => text
  | token _ spelling => spelling

/-- The text of some pieces. -/
def spell (pieces : List Piece) : List Char :=
  pieces.flatMap chars

/-- The tokens of some pieces that start at a place. -/
def place : Position → List Piece → List Token
  | _, [] => []
  | here, gap text :: rest => place (here.advanceAll text) rest
  | here, token lexeme spelling :: rest =>
      ⟨lexeme, here, (here.advanceAll spelling).line⟩ :: place (here.advanceAll spelling) rest

/-- The number of tokens among some pieces. -/
def count : List Piece → Nat
  | [] => 0
  | gap _ :: rest => count rest
  | token _ _ :: rest => count rest + 1

/-- A sign. -/
def mark (sign : Char) : Piece := token (.mark sign) [sign]

/-- An identifier or keyword. -/
def word (name : String) : Piece := token (.word name) name.toList

@[simp] theorem spell_nil : spell [] = [] := rfl

@[simp] theorem spell_cons (piece : Piece) (rest : List Piece) :
    spell (piece :: rest) = piece.chars ++ spell rest := rfl

@[simp] theorem spell_append (a b : List Piece) : spell (a ++ b) = spell a ++ spell b :=
  List.flatMap_append

@[simp] theorem chars_gap (text : List Char) : (gap text).chars = text := rfl

@[simp] theorem chars_token (lexeme : Lexeme) (spelling : List Char) :
    (token lexeme spelling).chars = spelling := rfl

@[simp] theorem chars_mark (sign : Char) : (mark sign).chars = [sign] := rfl

@[simp] theorem chars_word (name : String) : (word name).chars = name.toList := rfl

@[simp] theorem place_nil (here : Position) : place here [] = [] := rfl

@[simp] theorem place_gap (here : Position) (text : List Char) (rest : List Piece) :
    place here (gap text :: rest) = place (here.advanceAll text) rest := rfl

@[simp] theorem place_token (here : Position) (lexeme : Lexeme) (spelling : List Char)
    (rest : List Piece) :
    place here (token lexeme spelling :: rest) =
      ⟨lexeme, here, (here.advanceAll spelling).line⟩ ::
        place (here.advanceAll spelling) rest := rfl

@[simp] theorem place_mark (here : Position) (sign : Char) (rest : List Piece) :
    place here (mark sign :: rest) =
      ⟨.mark sign, here, (here.advance sign).line⟩ :: place (here.advance sign) rest := rfl

@[simp] theorem place_word (here : Position) (name : String) (rest : List Piece) :
    place here (word name :: rest) =
      ⟨.word name, here, (here.advanceAll name.toList).line⟩ ::
        place (here.advanceAll name.toList) rest := rfl

@[simp] theorem place_append (here : Position) (a b : List Piece) :
    place here (a ++ b) = place here a ++ place (here.advanceAll (spell a)) b := by
  induction a generalizing here with
  | nil => rfl
  | cons piece rest ih =>
      cases piece with
      | gap text => simp [ih, Position.advanceAll_append]
      | token lexeme spelling => simp [ih, Position.advanceAll_append]

@[simp] theorem count_nil : count [] = 0 := rfl

@[simp] theorem count_gap (text : List Char) (rest : List Piece) :
    count (gap text :: rest) = count rest := rfl

@[simp] theorem count_token (lexeme : Lexeme) (spelling : List Char) (rest : List Piece) :
    count (token lexeme spelling :: rest) = count rest + 1 := rfl

@[simp] theorem count_mark (sign : Char) (rest : List Piece) :
    count (mark sign :: rest) = count rest + 1 := rfl

@[simp] theorem count_word (name : String) (rest : List Piece) :
    count (word name :: rest) = count rest + 1 := rfl

@[simp] theorem count_append (a b : List Piece) : count (a ++ b) = count a + count b := by
  induction a with
  | nil => simp
  | cons piece rest ih =>
      cases piece with
      | gap text => simpa using ih
      | token lexeme spelling =>
          simp only [List.cons_append, count_token, ih]
          omega

@[simp] theorem length_place (here : Position) (pieces : List Piece) :
    (place here pieces).length = count pieces := by
  induction pieces generalizing here with
  | nil => rfl
  | cons piece rest ih => cases piece <;> simp [ih]

/-! ## Reading -/

/-- A piece is read as what it is, in front of a text: blanks are skipped, and a spelling gives its
token, whatever the place. -/
def Reads : Piece → List Char → Prop
  | gap text, _ => ∀ c ∈ text, Text.isBlank c = true
  | token lexeme spelling, rest =>
      ∃ c more, spelling = c :: more ∧
        ∀ here, Lexer.step here c (more ++ rest) =
          .ok (some ⟨lexeme, here, (here.advanceAll spelling).line⟩,
            ⟨here.advanceAll spelling, rest⟩)

/-- Each of some pieces is read as what it is, in front of what follows it. -/
def AllRead : List Piece → List Char → Prop
  | [], _ => True
  | piece :: others, rest => piece.Reads (spell others ++ rest) ∧ AllRead others rest

@[simp] theorem allRead_nil (rest : List Char) : AllRead [] rest := trivial

@[simp] theorem allRead_cons (piece : Piece) (others : List Piece) (rest : List Char) :
    AllRead (piece :: others) rest ↔ piece.Reads (spell others ++ rest) ∧ AllRead others rest :=
  Iff.rfl

@[simp] theorem allRead_append (a b : List Piece) (rest : List Char) :
    AllRead (a ++ b) rest ↔ AllRead a (spell b ++ rest) ∧ AllRead b rest := by
  induction a with
  | nil => simp
  | cons piece others ih => simp [ih, and_assoc]

theorem tokensFrom_nil (here : Position) : Lexer.tokensFrom here [] = .ok [] := by
  rw [Lexer.tokensFrom]

/-- The tokens of a text are that of one step, if it gives one, and those behind it. -/
theorem tokensFrom_of_step {here : Position} {c : Char} {rest : List Char} {found : Option Token}
    {next : Cursor} (h : Lexer.step here c rest = .ok (found, next)) :
    Lexer.tokensFrom here (c :: rest) =
      (Lexer.tokensFrom next.position next.text).map (found.toList ++ ·) := by
  rw [Lexer.tokensFrom]
  split
  · rename_i e he
    rw [h] at he
    cases he
  · rename_i found' next' hn
    rw [h] at hn
    cases hn
    cases Lexer.tokensFrom next.position next.text <;> rfl

theorem tokensFrom_of_step_error {here : Position} {c : Char} {rest : List Char} {e : SyntaxError}
    (failed : Lexer.step here c rest = .error e) :
    Lexer.tokensFrom here (c :: rest) = .error e := by
  rw [Lexer.tokensFrom]
  split
  · rename_i e' failed'
    rw [failed] at failed'
    exact congrArg Except.error (Except.error.inj failed'.symm)
  · rename_i found next read
    rw [failed] at read
    cases read

theorem tokensFrom_blanks {text : List Char} (blank : ∀ c ∈ text, Text.isBlank c = true)
    (here : Position) (rest : List Char) :
    Lexer.tokensFrom here (text ++ rest) = Lexer.tokensFrom (here.advanceAll text) rest := by
  induction text generalizing here with
  | nil => rfl
  | cons c text ih =>
      have hc : Text.isBlank c = true := blank c List.mem_cons_self
      have skip :
          Lexer.step here c (text ++ rest) = .ok (none, ⟨here.advance c, text ++ rest⟩) := by
        simp [Lexer.step, hc]
      have tail := ih (fun d hd => blank d (List.mem_cons_of_mem c hd)) (here.advance c)
      rw [List.cons_append, tokensFrom_of_step skip, Position.advanceAll_cons, ← tail]
      cases Lexer.tokensFrom (here.advance c) (text ++ rest) <;> rfl

theorem tokensFrom_token {lexeme : Lexeme} {spelling rest : List Char}
    (h : (token lexeme spelling).Reads rest) (here : Position) :
    Lexer.tokensFrom here (spelling ++ rest) =
      (Lexer.tokensFrom (here.advanceAll spelling) rest).map
        (⟨lexeme, here, (here.advanceAll spelling).line⟩ :: ·) := by
  obtain ⟨c, more, rfl, step⟩ := h
  rw [List.cons_append, tokensFrom_of_step (step here)]
  rfl

/-- The tokens of a printed text are those of its pieces. -/
theorem tokensFrom_spell {pieces : List Piece} {rest : List Char} (h : AllRead pieces rest)
    (here : Position) :
    Lexer.tokensFrom here (spell pieces ++ rest) =
      (Lexer.tokensFrom (here.advanceAll (spell pieces)) rest).map (place here pieces ++ ·) := by
  induction pieces generalizing here with
  | nil =>
      show Lexer.tokensFrom here rest = (Lexer.tokensFrom here rest).map fun found => found
      cases Lexer.tokensFrom here rest <;> rfl
  | cons piece others ih =>
      obtain ⟨first, more⟩ := h
      rw [spell_cons, List.append_assoc, Position.advanceAll_append]
      cases piece with
      | gap text => rw [chars_gap, tokensFrom_blanks first, ih more, place_gap]
      | token lexeme spelling =>
          rw [chars_token, tokensFrom_token first, ih more, place_token]
          cases Lexer.tokensFrom ((here.advanceAll spelling).advanceAll (spell others)) rest <;> rfl

end Piece

end HyperSchema
