import HyperSchema.Proofs.Declaration.Comment
import HyperSchema.Proofs.Declaration.Spelling

/-!
# Gaps — what the lexer passes over

Blanks and remarks, which are comments that are no documentation, separate tokens and leave none
themselves.  This file defines:

* `Lexer.Passes`, a stretch of a text with the tokens that are read from it;
* `Lexer.IsGap`, blanks and remarks, and `Lexer.IsGap.passes`: no token is read from them;
* `Lexer.step_doc`: a documentation comment is one token, which ends where the comment does;
* `Position.line_advanceAll`: a text moves the line by the line feeds in it.
-/

namespace HyperSchema

theorem Position.line_advanceAll (here : Position) (text : List Char) :
    (here.advanceAll text).line = here.line + text.count '\n' := by
  induction text generalizing here with
  | nil => rfl
  | cons c rest ih =>
      rw [advanceAll_cons, ih, advance]
      split
      · rename_i feed
        rw [feed, List.count_cons_self, Nat.add_assoc, Nat.add_comm 1]
      · rename_i other
        rw [List.count_cons_of_ne other]

namespace Lexer

variable {here : Position} {c : Char} {text body gap rest : List Char}

/-- Between two cursors the tokens are read. -/
inductive Passes : Cursor → List Token → Cursor → Prop
  | refl (cursor : Cursor) : Passes cursor [] cursor
  | step {here : Position} {c : Char} {rest : List Char} {found : Option Token}
      {next last : Cursor} {tokens : List Token} :
      Lexer.step here c rest = .ok (found, next) → Passes next tokens last →
        Passes ⟨here, c :: rest⟩ (found.toList ++ tokens) last

theorem Passes.tokensFrom {first last : Cursor} {tokens : List Token}
    (h : Passes first tokens last) :
    tokensFrom first.position first.text =
      (tokensFrom last.position last.text).map (tokens ++ ·) := by
  induction h with
  | refl cursor => cases Lexer.tokensFrom cursor.position cursor.text <;> rfl
  | @step _ _ _ _ _ last _ read _ ih =>
      rw [Piece.tokensFrom_of_step read, ih]
      cases Lexer.tokensFrom last.position last.text with
      | error e => rfl
      | ok more => simp [Except.map]

theorem Passes.trans {first middle last : Cursor} {tokens more : List Token}
    (h : Passes first tokens middle) (h' : Passes middle more last) :
    Passes first (tokens ++ more) last := by
  induction h with
  | refl => exact h'
  | step read _ ih =>
      rw [List.append_assoc]
      exact .step read (ih h')

/-- Blanks and remarks.  A remark up to the end of its line takes the line feed with it, and one
between signs does not start with a second star. -/
inductive IsGap : List Char → Prop
  | nil : IsGap []
  | blank {c : Char} {gap : List Char} : Text.isBlank c = true → IsGap gap → IsGap (c :: gap)
  | remark {text gap : List Char} : '\n' ∉ text → IsGap gap →
      IsGap ('/' :: '/' :: (text ++ '\n' :: gap))
  | block {text gap : List Char} : Text.hasInfix ['*', '/'] text = false →
      text.head? ≠ some '*' → IsGap gap → IsGap ('/' :: '*' :: (text ++ '*' :: '/' :: gap))

theorem step_blank (blank : Text.isBlank c = true) :
    Lexer.step here c rest = .ok (none, ⟨here.advance c, rest⟩) := by
  rw [Lexer.step, if_pos blank]

theorem step_slash : Lexer.step here '/' rest = slash here (here.advance '/') rest := by
  have noBlank : Text.isBlank '/' = false := by decide
  rw [Lexer.step, noBlank]
  rfl

/-- A remark goes up to the end of its line. -/
theorem step_remark (free : '\n' ∉ text) (ends : ∀ c ∈ rest.head?, (c != '\n') = false) :
    Lexer.step here '/' ('/' :: (text ++ rest)) =
      .ok (none, ⟨here.advanceAll ('/' :: '/' :: text), rest⟩) := by
  have all : ∀ c ∈ '/' :: text, (c != '\n') = true := by
    intro c mem
    rcases List.mem_cons.1 mem with rfl | mem
    · rfl
    · exact bne_iff_ne.2 fun same => free (same ▸ mem)
  have taken := takeWhile_append all ends (here.advance '/')
  rw [List.cons_append] at taken
  rw [step_slash, slash, taken]
  rfl

theorem step_block (free : Text.hasInfix ['*', '/'] text = false) :
    Lexer.step here '/' ('*' :: (text ++ '*' :: '/' :: rest)) =
      .ok (comment here text ⟨here.advanceAll ('/' :: '*' :: (text ++ ['*', '/'])), rest⟩) := by
  rw [step_slash, slash, commentBody_append free]
  rfl

/-- A comment is no token if no second star follows the first. -/
theorem step_plainBlock (free : Text.hasInfix ['*', '/'] text = false)
    (plain : text.head? ≠ some '*') :
    Lexer.step here '/' ('*' :: (text ++ '*' :: '/' :: rest)) =
      .ok (none, ⟨here.advanceAll ('/' :: '*' :: (text ++ ['*', '/'])), rest⟩) := by
  rw [step_block free, comment]
  intro more same
  exact plain (congrArg List.head? same)

/-- A gap holds no tokens. -/
theorem IsGap.passes (h : IsGap gap) (here : Position) (rest : List Char) :
    Passes ⟨here, gap ++ rest⟩ [] ⟨here.advanceAll gap, rest⟩ := by
  induction h generalizing here with
  | nil => exact .refl _
  | blank blank _ ih => exact .step (step_blank blank) (ih _)
  | @remark text gap free _ ih =>
      -- A remark ends in front of its line feed, which is a blank of its own.
      have feed : Text.isBlank '\n' = true := by decide
      have ends : ∀ c ∈ ('\n' :: (gap ++ rest)).head?, (c != '\n') = false := by
        rintro _ ⟨⟩
        rfl
      have place : here.advanceAll ('/' :: '/' :: (text ++ '\n' :: gap)) =
          ((here.advanceAll ('/' :: '/' :: text)).advance '\n').advanceAll gap := by
        rw [← Position.advanceAll_cons, ← Position.advanceAll_append]
        rfl
      have split : ('/' :: '/' :: (text ++ '\n' :: gap)) ++ rest =
          '/' :: '/' :: (text ++ '\n' :: (gap ++ rest)) := by
        simp
      rw [place, split]
      exact .step (step_remark free ends) (.step (step_blank feed) (ih _))
  | @block text gap free plain _ ih =>
      have place : here.advanceAll ('/' :: '*' :: (text ++ '*' :: '/' :: gap)) =
          (here.advanceAll ('/' :: '*' :: (text ++ ['*', '/']))).advanceAll gap := by
        rw [← Position.advanceAll_append]
        simp
      have split : ('/' :: '*' :: (text ++ '*' :: '/' :: gap)) ++ rest =
          '/' :: '*' :: (text ++ '*' :: '/' :: (gap ++ rest)) := by
        simp
      rw [place, split]
      exact .step (step_plainBlock free plain) (ih _)

/-- A documentation comment is a token, which ends where the comment does. -/
theorem step_doc (free : Text.hasInfix ['*', '/'] ('*' :: body) = false) :
    Lexer.step here '/' ('*' :: '*' :: (body ++ '*' :: '/' :: rest)) =
      .ok (some ⟨.doc (Declaration.docText body), here,
          (here.advanceAll ('/' :: '*' :: '*' :: (body ++ ['*', '/']))).line⟩,
        ⟨here.advanceAll ('/' :: '*' :: '*' :: (body ++ ['*', '/'])), rest⟩) :=
  step_block free

end Lexer

end HyperSchema
