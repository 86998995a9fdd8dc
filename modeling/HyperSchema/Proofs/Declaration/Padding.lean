import HyperSchema.Proofs.Declaration.Columns
import HyperSchema.Proofs.Declaration.Stretches
import HyperSchema.Proofs.Outcome

/-!
# Padding — blanks and comments on the same line change nothing

Between two tokens of a line there may be any number of blanks, tabs and comments.  This file
defines:

* `Lexer.IsPad`, blanks, tabs and comments of one line that are no documentation;
* `Lexer.Padded`, the texts in which pads stand in front of tokens and at the end;
* `Lexer.Padded.tokensFrom`: at the margin, a padded text has the tokens of the text itself;
* `Declaration.parse_of_padded`: it has the same declarations, with the same documentation.
-/

namespace HyperSchema

namespace Lexer

variable {here there : Position} {c : Char} {pad passed padded : List Char} {cursor next : Cursor}

/-- Blanks, tabs and comments without line feeds that are no documentation. -/
inductive IsPad : List Char → Prop
  | nil : IsPad []
  | blank {c : Char} {pad : List Char} : c = ' ' ∨ c = '\t' → IsPad pad → IsPad (c :: pad)
  | block {text pad : List Char} : Text.hasInfix ['*', '/'] text = false → text.head? ≠ some '*' →
      '\n' ∉ text → IsPad pad → IsPad ('/' :: '*' :: (text ++ '*' :: '/' :: pad))

theorem IsPad.isGap (h : IsPad pad) : IsGap pad := by
  induction h with
  | nil => exact .nil
  | blank sign _ ih =>
      refine .blank ?_ ih
      rcases sign with rfl | rfl <;> decide
  | block free plain _ _ ih => exact .block free plain ih

theorem IsPad.flat (h : IsPad pad) : '\n' ∉ pad := by
  induction h with
  | nil => exact List.not_mem_nil
  | blank sign _ ih =>
      rw [List.mem_cons, not_or]
      refine ⟨?_, ih⟩
      rcases sign with rfl | rfl <;> decide
  | block _ _ flat _ ih => simp [flat, ih]

theorem IsPad.line_advanceAll (h : IsPad pad) (here : Position) :
    (here.advanceAll pad).line = here.line := by
  rw [Position.line_advanceAll, List.count_eq_zero.2 h.flat, Nat.add_zero]

/-- No token goes on with a pad. -/
theorem IsPad.separates (h : IsPad (c :: pad)) : Separates c := by
  cases h with
  | blank sign => rcases sign with rfl | rfl <;> exact ⟨by decide, by decide, by decide⟩
  | block => exact ⟨by decide, by decide, by decide⟩

/-- The texts from a cursor on, with a pad in front of each token and at the end.  A pad may be
empty. -/
inductive Padded : Cursor → List Char → Prop
  | finish {here : Position} {pad : List Char} : IsPad pad → Padded ⟨here, []⟩ pad
  | between {here : Position} {c : Char} {rest passed padded : List Char} {next : Cursor} :
      Lexer.step here c rest = .ok (none, next) → c :: rest = passed ++ next.text →
        Padded next padded → Padded ⟨here, c :: rest⟩ (passed ++ padded)
  | token {here : Position} {c : Char} {rest pad passed padded : List Char} {token : Token}
      {next : Cursor} : Lexer.step here c rest = .ok (some token, next) →
        c :: rest = passed ++ next.text → IsPad pad → Padded next padded →
          Padded ⟨here, c :: rest⟩ (pad ++ (passed ++ padded))

/-- What a step passes is the stretch at the start of the text. -/
theorem exists_stretch_of_step {found : Option Token} {rest : List Char}
    (read : Lexer.step here c rest = .ok (found, next)) (split : c :: rest = passed ++ next.text) :
    ∃ lexeme? more, passed = c :: more ∧ rest = more ++ next.text ∧
      Stretch lexeme? passed next.text ∧ found = tokenOf lexeme? here passed ∧
        next.position = here.advanceAll passed := by
  rcases step_eq_ok_iff.1 read with ⟨lexeme?, more, rfl, stretch, given, place⟩
  obtain rfl : c :: more = passed := List.append_cancel_right split
  exact ⟨lexeme?, more, rfl, rfl, stretch, given, place⟩

/-- A padded text starts as the text itself, or with a pad, which does not stand at the end of a
line. -/
theorem Padded.head (h : Padded cursor padded) :
    padded.head? = cursor.text.head? ∨
      cursor.text.head? ≠ some '\n' ∧ ∃ c rest, padded = c :: rest ∧ Separates c := by
  cases h with
  | finish isPad =>
      cases padded with
      | nil => exact .inl rfl
      | cons c pad => exact .inr ⟨nofun, c, pad, rfl, isPad.separates⟩
  | between read split _ =>
      rcases exists_stretch_of_step read split with ⟨_, _, rfl, -⟩
      exact .inl rfl
  | @token here c rest pad passed padded _ _ read split isPad _ =>
      cases pad with
      | nil =>
          rcases exists_stretch_of_step read split with ⟨_, _, rfl, -⟩
          exact .inl rfl
      | cons first pad =>
          refine .inr ⟨?_, first, pad ++ (passed ++ padded), rfl, isPad.separates⟩
          rintro ⟨⟩
          rw [step_blank (by decide)] at read
          cases read

/-- A token is passed in front of the padded text as it is in front of the text. -/
theorem Padded.stretch_some {lexeme : Lexeme} (h : Padded next padded)
    (stretch : Stretch (some lexeme) passed next.text) : Stretch (some lexeme) passed padded := by
  rcases h.head with same | ⟨-, c, rest, rfl, separates⟩
  · exact stretch.of_head? same
  · exact stretch.of_separates separates

/-- So is what gives no token, but a remark at the end of the text takes the last pad for a part of
itself. -/
theorem Padded.stretch_none (h : Padded next padded) (stretch : Stretch none passed next.text) :
    Stretch none passed padded ∨
      next.text = [] ∧ Stretch none (passed ++ padded) [] := by
  rcases stretch.of_none with all | ⟨text, rfl, free, ends⟩
  · exact .inl (all padded)
  rcases next with ⟨place, _ | ⟨c, rest⟩⟩
  · cases h with
    | finish isPad =>
        have longer : '\n' ∉ text ++ padded := by
          rw [List.mem_append, not_or]
          exact ⟨free, isPad.flat⟩
        exact .inr ⟨rfl, .remark longer nofun⟩
  · -- The line feed behind the remark stands where it stood.
    have feed : c = '\n' := by simpa using ends c rfl
    subst feed
    rcases h.head with same | ⟨other, -⟩
    · exact .inl (stretch.of_head? same)
    · exact absurd rfl other

/-- A text that can be read is padded with nothing. -/
theorem padded_self {text : List Char} {found : List Token}
    (lexed : Lexer.tokensFrom here text = .ok found) : Padded ⟨here, text⟩ text := by
  induction size : text.length using Nat.strongRecOn generalizing here text found with
  | ind size ih =>
      subst size
      cases text with
      | nil => exact .finish .nil
      | cons c rest =>
          cases read : Lexer.step here c rest with
          | error e =>
              rw [Piece.tokensFrom_of_step_error read] at lexed
              cases lexed
          | ok passing =>
              rcases passing with ⟨token?, next⟩
              rcases step_eq_ok_iff.1 read with ⟨_, more, rfl, -⟩
              rw [Piece.tokensFrom_of_step read] at lexed
              rcases ok_of_map lexed with ⟨others, behind, -⟩
              have shorter : next.text.length < (c :: (more ++ next.text)).length := by
                rw [List.length_cons, List.length_append]
                omega
              -- The pads in front of the tokens are empty.
              have padding := ih _ shorter behind rfl
              have split : c :: (more ++ next.text) = (c :: more) ++ next.text := rfl
              cases token? with
              | none => exact .between read split padding
              | some token => exact .token read split .nil padding

/-- Places on one line are on one line behind the same text. -/
theorem line_advanceAll_congr (line : there.line = here.line) (text : List Char) :
    (there.advanceAll text).line = (here.advanceAll text).line := by
  rw [Position.line_advanceAll, Position.line_advanceAll, line]

/-- At the margin, a padded text has the tokens of the text itself. -/
theorem Padded.tokensFrom (h : Padded cursor padded) (line : there.line = cursor.position.line) :
    ∃ found found', Lexer.tokensFrom cursor.position cursor.text = .ok found ∧
      Lexer.tokensFrom there padded = .ok found' ∧
        Parser.atMargin found' = Parser.atMargin found := by
  induction h generalizing there with
  | @finish here pad isPad =>
      have passes := (isPad.isGap.passes there []).tokensFrom
      rw [List.append_nil, Piece.tokensFrom_nil] at passes
      exact ⟨[], [], Piece.tokensFrom_nil here, passes, rfl⟩
  | @between here c rest passed padded next read split padding ih =>
      rcases exists_stretch_of_step read split with ⟨lexeme?, more, rfl, rfl, stretch, given, place⟩
      cases lexeme? with
      | some lexeme => cases given
      | none =>
          have behind : (there.advanceAll (c :: more)).line = next.position.line :=
            place ▸ line_advanceAll_congr line (c :: more)
          rcases ih behind with ⟨found, found', lexed, lexed', same⟩
          refine ⟨found, found', ?_, ?_, same⟩
          · rw [Piece.tokensFrom_of_step read, lexed]
            rfl
          rcases padding.stretch_none stretch with stretch | ⟨ends, stretch⟩
          · have read := stretch.step rfl there
            rw [List.cons_append, Piece.tokensFrom_of_step read, lexed']
            rfl
          · -- The remark goes on to the end, where no token is left.
            obtain rfl : found = [] := by
              rw [ends, Piece.tokensFrom_nil] at lexed
              exact (Except.ok.inj lexed).symm
            obtain rfl : found' = [] := List.map_eq_nil_iff.1 same
            have read : Lexer.step there c (more ++ padded ++ []) = _ := stretch.step rfl there
            rw [List.append_nil] at read
            rw [List.cons_append, Piece.tokensFrom_of_step read, Piece.tokensFrom_nil]
            rfl
  | @token here c rest pad passed padded token next read split isPad padding ih =>
      rcases exists_stretch_of_step read split with ⟨lexeme?, more, rfl, rfl, stretch, given, place⟩
      cases lexeme? with
      | none => cases given
      | some lexeme =>
          have front : (there.advanceAll pad).line = here.line :=
            (isPad.line_advanceAll there).trans line
          have ended := line_advanceAll_congr front (c :: more)
          have behind : ((there.advanceAll pad).advanceAll (c :: more)).line = next.position.line :=
            place ▸ ended
          rcases ih behind with ⟨found, found', lexed, lexed', same⟩
          have passes := (isPad.isGap.passes there (c :: more ++ padded)).tokensFrom
          have read' := (padding.stretch_some stretch).step rfl (there.advanceAll pad)
          refine ⟨token :: found, ⟨lexeme, there.advanceAll pad,
            ((there.advanceAll pad).advanceAll (c :: more)).line⟩ :: found', ?_, ?_, ?_⟩
          · rw [Piece.tokensFrom_of_step read, lexed]
            rfl
          · rw [passes, List.cons_append, Piece.tokensFrom_of_step read', lexed']
            rfl
          · cases given
            rw [Parser.atMargin_cons, Parser.atMargin_cons, same, Token.atMargin, Token.atMargin,
              front, ended]

end Lexer

namespace Declaration

/-- A padded text has the declarations of the text itself, with the same documentation. -/
theorem parse_of_padded {source padded : String}
    (h : Lexer.Padded ⟨.first, source.toList⟩ padded.toList) (found : List Declaration) :
    parse padded = .ok found ↔ parse source = .ok found := by
  rcases h.tokensFrom rfl with ⟨tokens, tokens', lexed, lexed', same⟩
  calc parse padded = .ok found
      ↔ Parser.declarations (Parser.fuelFor tokens') tokens' = .ok found :=
        parse_eq_ok_iff_of_tokens lexed'
    _ ↔ Parser.declarations (Parser.fuelFor tokens) tokens = .ok found :=
        Parser.declarations_eq_ok_iff_of_atMargin same
    _ ↔ parse source = .ok found := (parse_eq_ok_iff_of_tokens lexed).symm

/-- A documented alias on one line, without a blank that could be left out. -/
def terseSource : String := "/** A */type A=1"

/-- The same with blanks, a tab and comments. -/
def spacedSource : String := "\t/** A */ /*b*/type A/**/= 1 "

/-- What is read of both. -/
def terseAlias : Declaration :=
  { name := "A", doc := some "A", params := [], body := .alias (.number "1"), isExported := false }

theorem padded_spacedSource :
    Lexer.Padded ⟨.first, terseSource.toList⟩ spacedSource.toList := by
  have source : terseSource.toList =
      ['/', '*', '*', ' ', 'A', ' ', '*', '/', 't', 'y', 'p', 'e', ' ', 'A', '=', '1'] := by decide
  have spaced : spacedSource.toList =
      ['\t', '/', '*', '*', ' ', 'A', ' ', '*', '/', ' ', '/', '*', 'b', '*', '/', 't', 'y', 'p',
        'e', ' ', 'A', '/', '*', '*', '/', '=', ' ', '1', ' '] := by decide
  have tab : Lexer.IsPad ['\t'] := .blank (.inr rfl) .nil
  have blank : Lexer.IsPad [' '] := .blank (.inl rfl) .nil
  have comment : Lexer.IsPad ('/' :: '*' :: (['b'] ++ ['*', '/'])) :=
    .block (by decide) (by decide) (by decide) .nil
  have empty : Lexer.IsPad ('/' :: '*' :: ([] ++ ['*', '/'])) :=
    .block (by decide) (by decide) (by decide) .nil
  rw [source, spaced]
  refine @Lexer.Padded.token _ _ _ ['\t'] ['/', '*', '*', ' ', 'A', ' ', '*', '/'] _ _ _ rfl rfl
    tab ?_
  refine @Lexer.Padded.token _ _ _ [' ', '/', '*', 'b', '*', '/'] ['t', 'y', 'p', 'e'] _ _ _ rfl rfl
    (.blank (.inl rfl) comment) ?_
  refine @Lexer.Padded.between _ _ _ [' '] _ _ rfl rfl ?_
  refine @Lexer.Padded.token _ _ _ [] ['A'] _ _ _ rfl rfl .nil ?_
  refine @Lexer.Padded.token _ _ _ ['/', '*', '*', '/'] ['='] _ _ _ rfl rfl empty ?_
  refine @Lexer.Padded.token _ _ _ [' '] ['1'] _ _ _ rfl rfl blank ?_
  exact .finish blank

theorem parse_terseSource : parse terseSource = .ok [terseAlias] := by
  have read : Lexer.tokens terseSource =
      .ok [⟨.doc "A", ⟨1, 1⟩, 1⟩, ⟨.word "type", ⟨1, 9⟩, 1⟩, ⟨.word "A", ⟨1, 14⟩, 1⟩,
        ⟨.mark '=', ⟨1, 15⟩, 1⟩, ⟨.number "1", ⟨1, 16⟩, 1⟩] := by
    decide +kernel
  unfold parse
  rw [read]
  rfl

theorem parse_spacedSource :
    Lexer.Padded ⟨.first, terseSource.toList⟩ spacedSource.toList ∧
      parse spacedSource = .ok [terseAlias] :=
  ⟨padded_spacedSource, (parse_of_padded padded_spacedSource [terseAlias]).2 parse_terseSource⟩

end Declaration

end HyperSchema
