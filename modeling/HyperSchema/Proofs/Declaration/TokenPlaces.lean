import HyperSchema.Proofs.Declaration.Stretches
import HyperSchema.Proofs.Outcome
import Mathlib.Data.List.DropRight

/-!
# Token places — tokens are where they are said to be

The lexer carries a place along and moves it at every character.  Here a place is told by the
characters in front of it instead: by the line feeds among them and by what follows the last one.
This file defines:

* `Position.behind`, the place behind the first characters of a text, and `Position.Precedes`, the
  order of places;
* `Lexer.LaidOut`, a text as a row of tokens and of stretches between them, each token with the
  place of its first character and the line of its last;
* `Lexer.tokens_eq_ok_iff_laidOut`: the tokens of a text are those that it is laid out as, and each
  stands behind the one before it.
-/

namespace HyperSchema

/-! ## Places -/

namespace Position

/-- The place of the character behind the given ones, which start a text.  The line feeds among them
end the lines in front of its line, and what follows the last one stands in its line. -/
def behind (before : List Char) : Position :=
  ⟨before.count '\n' + 1, (before.rtakeWhile (· != '\n')).length + 1⟩

theorem count_concat_of_ne {c : Char} (other : c ≠ '\n') (front : List Char) :
    (front ++ [c]).count '\n' = front.count '\n' := by
  simp [List.count_append, other]

theorem advance_behind (before : List Char) (c : Char) :
    (behind before).advance c = behind (before ++ [c]) := by
  by_cases feed : c = '\n'
  · subst feed
    have column : (before ++ ['\n']).rtakeWhile (· != '\n') = [] :=
      List.rtakeWhile_concat_neg (· != '\n') before '\n' (by decide)
    rw [behind, behind, column, List.count_append]
    rfl
  · have column : (before ++ [c]).rtakeWhile (· != '\n') = before.rtakeWhile (· != '\n') ++ [c] :=
      List.rtakeWhile_concat_pos (· != '\n') before c (bne_iff_ne.2 feed)
    rw [behind, behind, column, count_concat_of_ne feed, advance, if_neg feed, List.length_append]
    rfl

/-- Moving the place at each character of a text ends in the place behind the text. -/
theorem advanceAll_behind (before text : List Char) :
    (behind before).advanceAll text = behind (before ++ text) := by
  induction text generalizing before with
  | nil => rw [advanceAll_nil, List.append_nil]
  | cons c rest ih =>
      calc (behind before).advanceAll (c :: rest)
          = (behind (before ++ [c])).advanceAll rest := by rw [advanceAll_cons, advance_behind]
        _ = behind (before ++ [c] ++ rest) := ih _
        _ = behind (before ++ c :: rest) := by rw [List.append_assoc, List.singleton_append]

/-- One place stands in front of another in every text. -/
def Precedes (a b : Position) : Prop :=
  a.line < b.line ∨ a.line = b.line ∧ a.column < b.column

theorem Precedes.trans {a b c : Position} (h : a.Precedes b) (h' : b.Precedes c) :
    a.Precedes c := by
  unfold Precedes at *
  omega

theorem precedes_advance (here : Position) (c : Char) : here.Precedes (here.advance c) := by
  unfold advance
  split
  · exact .inl (Nat.lt_succ_self _)
  · exact .inr ⟨rfl, Nat.lt_succ_self _⟩

/-- A text that is not empty ends behind its start. -/
theorem precedes_advanceAll (here : Position) {text : List Char} (some : text ≠ []) :
    here.Precedes (here.advanceAll text) := by
  induction text generalizing here with
  | nil => exact absurd rfl some
  | cons c rest ih =>
      have first := precedes_advance here c
      by_cases last : rest = []
      · rw [last]
        exact first
      · exact first.trans (ih (here.advance c) last)

theorem behind_precedes (before : List Char) {text : List Char} (some : text ≠ []) :
    (behind before).Precedes (behind (before ++ text)) := by
  rw [← advanceAll_behind]
  exact precedes_advanceAll _ some

end Position

namespace Lexer

variable {lexeme : Lexeme} {lexeme? : Option Lexeme} {c : Char} {text passed rest : List Char}

/-! ## The ends of a token -/

theorem Stretch.ne_nil (h : Stretch lexeme? passed rest) : passed ≠ [] := by
  cases h with
  | number numeral =>
      rintro rfl
      cases numeral
  | word identifier =>
      rintro rfl
      cases identifier
  | _ => exact List.cons_ne_nil _ _

/-- A run of characters that are no line feeds ends in one of them. -/
theorem exists_last_of_free (some : text ≠ []) (free : '\n' ∉ text) :
    ∃ front last, text = front ++ [last] ∧ last ≠ '\n' := by
  refine ⟨text.dropLast, text.getLast some, (List.dropLast_append_getLast some).symm, ?_⟩
  intro feed
  exact free (feed ▸ List.getLast_mem some)

theorem feed_not_mem_of_isNumeral (numeral : isNumeral text = true) : '\n' ∉ text := by
  cases text with
  | nil => exact List.not_mem_nil
  | cons c rest =>
      rcases Bool.and_eq_true_iff.1 numeral with ⟨digit, all⟩
      intro mem
      rcases List.mem_cons.1 mem with rfl | mem
      · exact absurd digit (by decide)
      · exact absurd (List.all_eq_true.1 all _ mem) (by decide)

theorem feed_not_mem_of_isIdentifier (identifier : isIdentifier text = true) : '\n' ∉ text := by
  cases text with
  | nil => exact List.not_mem_nil
  | cons c rest =>
      rcases Bool.and_eq_true_iff.1 identifier with ⟨letter, all⟩
      intro mem
      rcases List.mem_cons.1 mem with rfl | mem
      · exact absurd letter (by decide)
      · exact absurd (List.all_eq_true.1 all _ mem) (by decide)

/-- A token may have line feeds inside, but it does not end in one. -/
theorem Stretch.exists_last (h : Stretch (some lexeme) passed rest) :
    ∃ front last, passed = front ++ [last] ∧ last ≠ '\n' := by
  cases h with
  | @doc body => exact ⟨'/' :: '*' :: '*' :: (body ++ ['*']), '/', by simp, by decide⟩
  | @text quote _ body _ isQ =>
      refine ⟨quote :: body, quote, rfl, ?_⟩
      rintro rfl
      exact absurd isQ (by decide)
  | point => exact ⟨[], '.', rfl, by decide⟩
  | ellipsis => exact ⟨['.', '.'], '.', rfl, by decide⟩
  | number numeral ends =>
      exact exists_last_of_free (Stretch.number numeral ends).ne_nil
        (feed_not_mem_of_isNumeral numeral)
  | word identifier ends =>
      exact exists_last_of_free (Stretch.word identifier ends).ne_nil
        (feed_not_mem_of_isIdentifier identifier)
  | @mark sign _ mem =>
      refine ⟨[], sign, rfl, ?_⟩
      rintro rfl
      exact absurd mem (by decide)

/-- So behind a token the line is still that of its last character. -/
theorem Stretch.line_behind (h : Stretch (some lexeme) passed rest) (before : List Char) :
    (Position.behind (before ++ passed)).line =
      (Position.behind (before ++ passed.dropLast)).line := by
  rcases h.exists_last with ⟨front, last, rfl, noFeed⟩
  calc (before ++ (front ++ [last])).count '\n' + 1
      = (before ++ front).count '\n' + 1 := by
        rw [← List.append_assoc, Position.count_concat_of_ne noFeed]
    _ = (before ++ (front ++ [last]).dropLast).count '\n' + 1 := by rw [List.dropLast_concat]

/-! ## Texts as rows of tokens -/

/-- What stands behind some characters is a row of tokens and of stretches that give none.  A token
has the place of its first character and the line of its last. -/
inductive LaidOut : List Char → List Char → List Token → Prop
  | finish (before : List Char) : LaidOut before [] []
  | between {before passed rest : List Char} {tokens : List Token} :
      Stretch none passed rest → LaidOut (before ++ passed) rest tokens →
        LaidOut before (passed ++ rest) tokens
  | token {before passed rest : List Char} {token : Token} {tokens : List Token} :
      Stretch (some token.lexeme) passed rest → token.start = Position.behind before →
        token.endLine = (Position.behind (before ++ passed.dropLast)).line →
          LaidOut (before ++ passed) rest tokens → LaidOut before (passed ++ rest) (token :: tokens)

variable {before : List Char} {tokens : List Token}

/-- The tokens of a row are read. -/
theorem LaidOut.tokensFrom (h : LaidOut before text tokens) :
    tokensFrom (Position.behind before) text = .ok tokens := by
  induction h with
  | finish before => exact Piece.tokensFrom_nil _
  | @between before passed rest tokens stretch _ ih =>
      rcases List.exists_cons_of_ne_nil stretch.ne_nil with ⟨c, more, rfl⟩
      have read := stretch.step rfl (Position.behind before)
      rw [Position.advanceAll_behind] at read
      rw [List.cons_append, Piece.tokensFrom_of_step read, ih]
      rfl
  | @token before passed rest token tokens stretch start endLine _ ih =>
      rcases List.exists_cons_of_ne_nil stretch.ne_nil with ⟨c, more, rfl⟩
      have read := stretch.step rfl (Position.behind before)
      have given : tokenOf (some token.lexeme) (Position.behind before) (c :: more) =
          some token := by
        rw [tokenOf, Option.map_some, Position.advanceAll_behind, stretch.line_behind, ← endLine,
          ← start]
      rw [given, Position.advanceAll_behind] at read
      rw [List.cons_append, Piece.tokensFrom_of_step read, ih]
      rfl

/-- What is read is laid out as a row of tokens. -/
theorem laidOut_of_tokensFrom (h : tokensFrom (Position.behind before) text = .ok tokens) :
    LaidOut before text tokens := by
  -- Each step leaves a shorter text, behind more characters.
  induction size : text.length using Nat.strongRecOn generalizing before text tokens with
  | ind size ih =>
      subst size
      cases text with
      | nil =>
          rw [Piece.tokensFrom_nil] at h
          cases h
          exact .finish before
      | cons c rest =>
          cases read : Lexer.step (Position.behind before) c rest with
          | error e =>
              rw [Piece.tokensFrom_of_step_error read] at h
              cases h
          | ok passing =>
              rcases passing with ⟨found, here, rest'⟩
              rcases step_eq_ok_iff.1 read with ⟨lexeme?, more, rfl, stretch, given, place⟩
              rw [Piece.tokensFrom_of_step read] at h
              rcases ok_of_map h with ⟨others, lexed, rfl⟩
              dsimp only at place lexed stretch
              have place : here = Position.behind (before ++ c :: more) :=
                place.trans (Position.advanceAll_behind _ _)
              have shorter : rest'.length < (c :: (more ++ rest')).length := by
                rw [List.length_cons, List.length_append]
                omega
              have row : LaidOut (before ++ c :: more) rest' others :=
                ih _ shorter (place ▸ lexed) rfl
              subst given
              cases lexeme? with
              | none => exact .between stretch row
              | some lexeme =>
                  refine .token stretch rfl ?_ row
                  rw [Position.advanceAll_behind]
                  exact stretch.line_behind before

/-! ## The order of tokens -/

/-- All tokens of a row stand behind the characters in front of it. -/
theorem LaidOut.exists_start (h : LaidOut before text tokens) {token : Token}
    (mem : token ∈ tokens) : ∃ more, token.start = Position.behind (before ++ more) := by
  induction h with
  | finish => cases mem
  | between _ _ ih =>
      rcases ih mem with ⟨more, start⟩
      exact ⟨_, by rw [start, List.append_assoc]⟩
  | token _ start _ _ ih =>
      rcases List.mem_cons.1 mem with rfl | mem
      · exact ⟨[], by rw [start, List.append_nil]⟩
      · rcases ih mem with ⟨more, start⟩
        exact ⟨_, by rw [start, List.append_assoc]⟩

/-- Each token of a row stands behind the one before it. -/
theorem LaidOut.pairwise (h : LaidOut before text tokens) :
    tokens.Pairwise fun a b => a.start.Precedes b.start := by
  induction h with
  | finish => exact .nil
  | between _ _ ih => exact ih
  | @token before passed rest token tokens stretch start _ row ih =>
      refine List.pairwise_cons.2 ⟨fun other mem => ?_, ih⟩
      rcases row.exists_start mem with ⟨more, later⟩
      have some : passed ++ more ≠ [] := List.append_ne_nil_of_left_ne_nil stretch.ne_nil _
      rw [start, later, List.append_assoc]
      exact Position.behind_precedes before some

/-- The tokens of a text are exactly those that it is laid out as, where each token has the place of
its first character and the line of its last; and each stands behind the one before it. -/
theorem tokens_eq_ok_iff_laidOut {source : String} {tokens : List Token} :
    Lexer.tokens source = .ok tokens ↔
      LaidOut [] source.toList tokens ∧
        tokens.Pairwise fun a b => a.start.Precedes b.start := by
  have atStart : Position.behind [] = .first := rfl
  rw [Lexer.tokens, ← atStart]
  constructor
  · intro read
    have row := laidOut_of_tokensFrom read
    exact ⟨row, row.pairwise⟩
  · rintro ⟨row, -⟩
    exact row.tokensFrom

/-- A comment and a literal over two lines each: only line feeds end lines. -/
example : Lexer.tokens "/**\r\n*/é = 'a\\\nb';" =
    .ok [⟨.doc "", ⟨1, 1⟩, 2⟩, ⟨.word "é", ⟨2, 3⟩, 2⟩, ⟨.mark '=', ⟨2, 5⟩, 2⟩,
      ⟨.text "ab", ⟨2, 7⟩, 3⟩, ⟨.mark ';', ⟨3, 3⟩, 3⟩] := by
  decide +kernel

end Lexer

end HyperSchema
