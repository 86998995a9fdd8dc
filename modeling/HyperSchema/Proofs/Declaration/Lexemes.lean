import HyperSchema.Proofs.Declaration.Comment

/-!
# Lexemes — what the tokens of a text can be

Every token of every text is of a form that a printed text can have.  This file defines:

* `Lexeme.isWellFormed`: words are identifiers, numbers are numerals, and comments have the form of
  a comment's text;
* `Lexer.step_isWellFormed` for one step of the lexer;
* `Lexer.tokens_isWellFormed` for all tokens of a text, by induction over the text that is left.
-/

namespace HyperSchema

/-- Whether a lexeme is one that a text can contain.  The value of a string literal is arbitrary. -/
def Lexeme.isWellFormed : Lexeme → Bool
  | .word name => Lexer.isIdentifier name.toList
  | .number spelling => Lexer.isNumeral spelling.toList
  | .doc body => Declaration.isDocText body
  | _ => true

namespace Lexer

theorem takeWhile_all (p : Char → Bool) (here : Position) (text : List Char) :
    (takeWhile p here text).1.all p = true := by
  induction text generalizing here with
  | nil => rfl
  | cons c rest ih =>
      rw [takeWhile]
      by_cases hc : p c = true
      · simpa [hc] using ih (here.advance c)
      · simp [hc]

/-! ## One step -/

theorem comment_isWellFormed {start : Position} {body : List Char} {next next' : Cursor}
    {found : Token} (h : comment start body next = (some found, next'))
    (closed : Text.hasInfix ['*', '/'] body = false) : found.lexeme.isWellFormed = true := by
  unfold comment at h
  split at h
  · rename_i text
    have part : text <:+: '*' :: text := (List.suffix_cons '*' text).isInfix
    have doc := Declaration.isDocText_docText (Text.hasInfix_of_infix part closed)
    cases h
    exact doc
  · cases h

theorem slash_isWellFormed {start after : Position} {rest : List Char} {found : Token}
    {next : Cursor} (h : slash start after rest = .ok (some found, next)) :
    found.lexeme.isWellFormed = true := by
  unfold slash at h
  split at h
  · cases h
  · rename_i more
    cases hb : commentBody (after.advance '*') more with
    | error e => simp [hb, Except.map] at h
    | ok read =>
        rcases read with ⟨body, cursor⟩
        simp only [hb, Except.map, Except.ok.injEq] at h
        exact comment_isWellFormed h (hasInfix_commentBody hb)
  · cases h

theorem point_isWellFormed {start after : Position} {rest : List Char} {found : Token}
    {next : Cursor} (h : point start after rest = .ok (some found, next)) :
    found.lexeme.isWellFormed = true := by
  unfold point at h
  split at h
  · dsimp only at h
    split at h
    · cases h
    · split at h
      · cases h
        rfl
      · cases h
  · cases h
    rfl

/-- A step that gives a token gives one that a text can contain. -/
theorem step_isWellFormed {here : Position} {c : Char} {rest : List Char} {found : Token}
    {next : Cursor} (h : step here c rest = .ok (some found, next)) :
    found.lexeme.isWellFormed = true := by
  unfold step at h
  dsimp only at h
  split at h
  · cases h
  split at h
  · exact slash_isWellFormed h
  split at h
  · cases hs : stringBody c (here.advance c) rest with
    | error e => simp [hs, Except.map] at h
    | ok read =>
        simp only [hs, Except.map, token, Except.ok.injEq, Prod.mk.injEq, Option.some.injEq] at h
        rw [← h.1]
        rfl
  split at h
  · exact point_isWellFormed h
  split at h
  · rename_i digit
    have more := takeWhile_all continuesNumber (here.advance c) rest
    cases h
    simp [Lexeme.isWellFormed, isNumeral, digit, more]
  split at h
  · rename_i starts
    have more := takeWhile_all continuesWord (here.advance c) rest
    cases h
    simp [Lexeme.isWellFormed, isIdentifier, starts, more]
  split at h
  · cases h
    rfl
  · cases h

/-! ## All tokens -/

theorem tokensFrom_isWellFormed {here : Position} {text : List Char} {found : List Token}
    (h : tokensFrom here text = .ok found) : ∀ token ∈ found, token.lexeme.isWellFormed = true := by
  induction hn : text.length using Nat.strongRecOn generalizing here text found with
  | ind n ih =>
      subst hn
      unfold tokensFrom at h
      split at h
      · cases h
        exact List.forall_mem_nil _
      · rename_i c rest
        split at h
        · cases h
        · rename_i first next hs
          split at h
          · rename_i more hm
            have shorter : next.text.length < (c :: rest).length := by
              have := (step_reaches hs).length_le
              simp only [List.length_cons] at this ⊢
              omega
            cases h
            intro token ht
            -- A token is either that of this step or one behind it.
            rcases List.mem_append.1 ht with ht | ht
            · have : first = some token := by simpa using ht
              subst this
              exact step_isWellFormed hs
            · exact ih _ shorter hm rfl token ht
          · cases h

/-- Every token of a text is one that a text can contain. -/
theorem tokens_isWellFormed {source : String} {found : List Token} (h : tokens source = .ok found) :
    ∀ token ∈ found, token.lexeme.isWellFormed = true :=
  tokensFrom_isWellFormed h

end Lexer

end HyperSchema
