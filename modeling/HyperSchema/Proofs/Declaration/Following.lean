import HyperSchema.Proofs.Declaration.Attachment
import HyperSchema.Proofs.Declaration.Head

/-!
# Following — a head and a reader step by step

A head that stands at a position has the tokens from there on in front of it.  It reads the same as
a reader that is given these tokens, and fails for the same reason at the same place.  This file
defines:

* `Head.Agrees`, that relation between the outcomes of both, with a bound for the position behind
  what was read, and `Head.Agrees.bind`, for one step after another;
* `Head.told`, the outcome of the head as the reader tells it;
* `Head.eat_cases`, `Head.exists_takeDoc` and the like: one law for each single step, and for each
  step that is followed by others.
-/

namespace HyperSchema

namespace Head

open HyperSchema.Parser (Failure takeDoc_doc_doc takeDoc_doc_plain)

variable {α β : Type} {all : List Token} {pos low mid : Nat} {short short' : Prop}

/-! ## Steps in sequence -/

theorem bind_apply (read : Head α) (next : α → Head β) (all : List Token) (pos : Nat) :
    (read >>= next) all pos =
      match read all pos with
      | .ok (found, pos) => next found all pos
      | .error stop => .error stop := rfl

instance : LawfulMonad Head :=
  LawfulMonad.mk' Head
    (fun read => by
      funext all pos
      show (read >>= pure) all pos = read all pos
      rw [bind_apply]
      cases read all pos <;> rfl)
    (fun _ _ => rfl)
    (fun read next last => by
      funext all pos
      rw [bind_apply, bind_apply, bind_apply]
      cases read all pos <;> rfl)

theorem bind_of_ok {read : Head α} {next : α → Head β} {found : α}
    (moved : read all pos = .ok (found, mid)) : (read >>= next) all pos = next found all mid := by
  rw [bind_apply, moved]

/-- A head and a reader end alike: behind the same tokens, at a position with a lower bound, or with
the same fault at the same place.  Only where it is short of fuel do they give up. -/
inductive Agrees (all : List Token) (low : Nat) (short : Prop) :
    Except Stop (α × Nat) → Except Failure (α × List Token) → Prop
  | ok (found : α) {pos : Nat} : low ≤ pos → pos ≤ all.length →
      Agrees all low short (.ok (found, pos)) (.ok (found, all.drop pos))
  | fault {fault : SyntaxFault} (pos : Nat) : (fault = .nestingTooDeep → short) →
      Agrees all low short (.error (.fault ⟨place all pos, fault⟩)) (.error ⟨fault, all.drop pos⟩)

/-- Two steps in a row agree if each does, from wherever the first one ends. -/
theorem Agrees.bind {read : Head α} {read' : Except Failure (α × List Token)}
    {next : α → Head β} {next' : α × List Token → Except Failure (β × List Token)}
    (h : Agrees all mid short' (read all pos) read') (enough : short' → short)
    (continued : ∀ found pos, mid ≤ pos → pos ≤ all.length →
      Agrees all low short (next found all pos) (next' (found, all.drop pos))) :
    Agrees all low short ((read >>= next) all pos) (read' >>= next') := by
  rw [bind_apply]
  generalize read all pos = moved at h
  cases h with
  | ok found ahead inside => exact continued found _ ahead inside
  | fault pos plain => exact .fault pos (enough ∘ plain)

/-- A lower bound and a weaker excuse do as well. -/
theorem Agrees.mono {moved : Except Stop (α × Nat)} {read : Except Failure (α × List Token)}
    (h : Agrees all mid short' moved read) (lower : low ≤ mid) (enough : short' → short) :
    Agrees all low short moved read := by
  cases h with
  | ok found ahead inside => exact .ok found (Nat.le_trans lower ahead) inside
  | fault pos plain => exact .fault pos (enough ∘ plain)

/-- A reader that passes one token, as the head does. -/
theorem Agrees.passed {read : Except Failure (α × List Token)} {found : α}
    (inside : pos < all.length) (gives : read = .ok (found, all.drop (pos + 1))) :
    Agrees all (pos + 1) short (.ok (found, pos + 1)) read := by
  rw [gives]
  exact .ok found (Nat.le_refl _) inside

/-- A reader that fails where the head is, or where it has stepped back to. -/
theorem Agrees.failed {read : Except Failure (α × List Token)} {fault : SyntaxFault}
    (plain : fault ≠ .nestingTooDeep) (gives : read = .error ⟨fault, all.drop pos⟩) :
    Agrees all low short (.error (.fault ⟨place all pos, fault⟩)) read := by
  rw [gives]
  exact .fault pos fun same => absurd same plain

/-! ## What is left at a position -/

theorem drop_of_found {token : Token} (found : all[pos]? = some token) :
    all.drop pos = token :: all.drop (pos + 1) := by
  rcases List.getElem?_eq_some_iff.1 found with ⟨inside, rfl⟩
  exact List.drop_eq_getElem_cons inside

/-- At a position stands nothing, or the first of the tokens that are left. -/
theorem drop_cases (all : List Token) (pos : Nat) :
    (all[pos]? = none ∧ all.drop pos = []) ∨
      ∃ token, all[pos]? = some token ∧ all.drop pos = token :: all.drop (pos + 1) ∧
        pos < all.length := by
  rcases Nat.lt_or_ge pos all.length with inside | beyond
  · have found : all[pos]? = some all[pos] := List.getElem?_eq_getElem inside
    exact .inr ⟨all[pos], found, drop_of_found found, inside⟩
  · exact .inl ⟨List.getElem?_eq_none beyond, List.drop_eq_nil_of_le beyond⟩

/-! ## Outcomes -/

theorem place_eq (all : List Token) (pos : Nat) (fault : SyntaxFault) :
    place all pos = Failure.position all ⟨fault, all.drop pos⟩ := by
  rcases drop_cases all pos with ⟨nothing, left⟩ | ⟨token, found, left, -⟩
  · rw [place, nothing, left, Option.none_or]
    unfold Failure.position
    cases all.getLast? <;> rfl
  · rw [place, found, left]
    rfl

/-- How a head ends, told by a reader. -/
def told (all : List Token) (read : Except Failure (α × List Token)) : Except Stop (α × Nat) :=
  match read with
  | .ok (found, rest) => .ok (found, all.length - rest.length)
  | .error failure => .error (.fault ⟨failure.position all, failure.fault⟩)

theorem Agrees.eq_told {low : Nat} {short : Prop} {moved : Except Stop (α × Nat)}
    {read : Except Failure (α × List Token)} (h : Agrees all low short moved read) :
    moved = told all read := by
  cases h with
  | @ok found pos ahead inside =>
      have behind : all.length - (all.drop pos).length = pos := by
        rw [List.length_drop]
        omega
      rw [told, behind]
  | @fault fault pos plain => rw [told, place_eq all pos fault]

theorem Agrees.short_of_nestingTooDeep {low : Nat} {short : Prop} {position : Position}
    {moved : Except Stop (α × Nat)} {read : Except Failure (α × List Token)}
    (h : Agrees all low short moved read)
    (out : moved = .error (.fault ⟨position, .nestingTooDeep⟩)) : short := by
  cases h with
  | ok found => cases out
  | fault pos plain =>
      cases out
      exact plain rfl

/-! ## Signs and words -/

/-- The tokens behind something, if they start with it. -/
def eatLexeme (lexeme : Lexeme) : List Token → Option (List Token)
  | [] => none
  | token :: rest => if token.lexeme = lexeme then some rest else none

theorem eatMark_eq (sign : Char) (tokens : List Token) :
    Parser.eatMark sign tokens = eatLexeme (.mark sign) tokens := by
  cases tokens with
  | nil => rfl
  | cons token rest =>
      rcases token with ⟨lexeme, start, line⟩
      cases lexeme <;> simp [Parser.eatMark, eatLexeme]

theorem eatWord_eq (word : String) (tokens : List Token) :
    Parser.eatWord word tokens = eatLexeme (.word word) tokens := by
  cases tokens with
  | nil => rfl
  | cons token rest =>
      rcases token with ⟨lexeme, start, line⟩
      cases lexeme <;> simp [Parser.eatWord, eatLexeme]

theorem eat_of_peek {lexeme : Lexeme} (h : all[pos]?.map Token.lexeme = some lexeme) :
    eat lexeme all pos = .ok (true, pos + 1) := by
  show (if all[pos]?.map Token.lexeme = some lexeme then _ else _ : Head Bool) all pos = _
  rw [if_pos h]
  rfl

theorem eat_of_peek_ne {lexeme : Lexeme} (h : all[pos]?.map Token.lexeme ≠ some lexeme) :
    eat lexeme all pos = .ok (false, pos) := by
  show (if all[pos]?.map Token.lexeme = some lexeme then _ else _ : Head Bool) all pos = _
  rw [if_neg h]
  rfl

theorem eatLexeme_drop (lexeme : Lexeme) (all : List Token) (pos : Nat) :
    eatLexeme lexeme (all.drop pos) =
      if all[pos]?.map Token.lexeme = some lexeme then some (all.drop (pos + 1)) else none := by
  rcases drop_cases all pos with ⟨nothing, left⟩ | ⟨token, found, left, -⟩
  · rw [nothing, left, Option.map_none, if_neg (Option.some_ne_none _).symm]
    rfl
  · simp only [found, left, Option.map_some, Option.some_inj, eatLexeme]

theorem lt_length_of_peek {lexeme : Lexeme} (h : all[pos]?.map Token.lexeme = some lexeme) :
    pos < all.length := by
  rcases Option.map_eq_some_iff.1 h with ⟨token, found, -⟩
  exact (List.getElem?_eq_some_iff.1 found).1

/-- The head moves over something if and only if it stands in front of the tokens that are left. -/
theorem eat_cases (lexeme : Lexeme) (all : List Token) (pos : Nat) :
    (eat lexeme all pos = .ok (false, pos) ∧ eatLexeme lexeme (all.drop pos) = none) ∨
      (eat lexeme all pos = .ok (true, pos + 1) ∧
        eatLexeme lexeme (all.drop pos) = some (all.drop (pos + 1)) ∧ pos < all.length) := by
  rw [eatLexeme_drop]
  by_cases there : all[pos]?.map Token.lexeme = some lexeme
  · exact .inr ⟨eat_of_peek there, if_pos there, lt_length_of_peek there⟩
  · exact .inl ⟨eat_of_peek_ne there, if_neg there⟩

variable {read : Except Failure (α × List Token)}

/-- A choice by what stands at the head is made by the tokens that are left. -/
theorem Agrees.eat {lexeme : Lexeme} {yes no : Head α}
    (missing : eatLexeme lexeme (all.drop pos) = none → Agrees all low short (no all pos) read)
    (eaten : eatLexeme lexeme (all.drop pos) = some (all.drop (pos + 1)) → pos < all.length →
      Agrees all low short (yes all (pos + 1)) read) :
    Agrees all low short ((do if ← eat lexeme then yes else no) all pos) read := by
  rcases eat_cases lexeme all pos with ⟨moved, left⟩ | ⟨moved, left, inside⟩
  · rw [bind_of_ok moved]
    exact missing left
  · rw [bind_of_ok moved]
    exact eaten left inside

theorem Agrees.eatMark {sign : Char} {yes no : Head α}
    (missing : Parser.eatMark sign (all.drop pos) = none → Agrees all low short (no all pos) read)
    (eaten : Parser.eatMark sign (all.drop pos) = some (all.drop (pos + 1)) → pos < all.length →
      Agrees all low short (yes all (pos + 1)) read) :
    Agrees all low short ((do if ← Head.eat (.mark sign) then yes else no) all pos) read := by
  rw [eatMark_eq] at missing eaten
  exact .eat missing eaten

theorem Agrees.eatWord {word : String} {yes no : Head α}
    (missing : Parser.eatWord word (all.drop pos) = none → Agrees all low short (no all pos) read)
    (eaten : Parser.eatWord word (all.drop pos) = some (all.drop (pos + 1)) → pos < all.length →
      Agrees all low short (yes all (pos + 1)) read) :
    Agrees all low short ((do if ← Head.eat (.word word) then yes else no) all pos) read := by
  rw [eatWord_eq] at missing eaten
  exact .eat missing eaten

/-- What may be missing is passed over by both. -/
theorem exists_skip (lexeme : Lexeme) (inside : pos ≤ all.length) :
    ∃ next, eat lexeme all pos = .ok ((eatLexeme lexeme (all.drop pos)).isSome, next) ∧
      (eatLexeme lexeme (all.drop pos)).getD (all.drop pos) = all.drop next ∧
        pos ≤ next ∧ next ≤ all.length := by
  rcases eat_cases lexeme all pos with ⟨moved, left⟩ | ⟨moved, left, ahead⟩
  · exact ⟨pos, by rw [left]; exact moved, by rw [left]; rfl, Nat.le_refl _, inside⟩
  · exact ⟨pos + 1, by rw [left]; exact moved, by rw [left]; rfl, Nat.le_succ _, ahead⟩

theorem Agrees.expect {sign : Char} {next : Unit → Head α}
    {next' : List Token → Except Failure (α × List Token)}
    (continued : pos < all.length →
      Agrees all low short (next () all (pos + 1)) (next' (all.drop (pos + 1)))) :
    Agrees all low short ((Head.expect sign >>= next) all pos)
      (Parser.expectMark sign (all.drop pos) >>= next') := by
  rw [Parser.expectMark, eatMark_eq]
  rcases eat_cases (.mark sign) all pos with ⟨moved, left⟩ | ⟨moved, left, inside⟩
  · have failed : Head.expect sign all pos = .error (.fault ⟨place all pos, .expectedMark sign⟩) :=
      bind_of_ok moved
    rw [left, bind_apply, failed]
    exact .failed (by simp) rfl
  · have passed : Head.expect sign all pos = .ok ((), pos + 1) := bind_of_ok moved
    rw [left, bind_of_ok passed]
    exact continued inside

theorem peek_of_found {token : Token} (found : all[pos]? = some token) :
    peek all pos = .ok (some token.lexeme, pos) := by
  rw [peek, found, Option.map_some]

theorem peek_of_nothing (nothing : all[pos]? = none) : peek all pos = .ok (none, pos) := by
  rw [peek, nothing, Option.map_none]

theorem advance_of_found {token : Token} (found : all[pos]? = some token) :
    advance all pos = .ok (some token.lexeme, pos + 1) := by
  rw [advance, found, Option.map_some]

theorem advance_of_nothing (nothing : all[pos]? = none) :
    advance all pos = .ok (none, pos + 1) := by
  rw [advance, nothing, Option.map_none]

theorem identifier_agrees (all : List Token) (pos : Nat) :
    Agrees all (pos + 1) False (identifier all pos) (Parser.identifier (all.drop pos)) := by
  rw [identifier]
  rcases drop_cases all pos with ⟨nothing, left⟩ | ⟨⟨lexeme, start, line⟩, found, left, inside⟩
  · rw [bind_of_ok (peek_of_nothing nothing)]
    exact .failed (by simp) (by rw [left]; rfl)
  · rw [bind_of_ok (peek_of_found found)]
    cases lexeme with
    | word name => exact .passed inside (by rw [left]; rfl)
    | _ => exact .failed (by simp) (by rw [left]; rfl)

theorem propertyName_agrees (all : List Token) (pos : Nat) :
    Agrees all (pos + 1) False (propertyName all pos) (Parser.propertyName (all.drop pos)) := by
  rw [propertyName]
  rcases drop_cases all pos with ⟨nothing, left⟩ | ⟨⟨lexeme, start, line⟩, found, left, inside⟩
  · rw [bind_of_ok (advance_of_nothing nothing)]
    exact .failed (by simp) (by rw [left]; rfl)
  · rw [bind_of_ok (advance_of_found found)]
    cases lexeme with
    | word name => exact .passed inside (by rw [left]; rfl)
    | text name => exact .passed inside (by rw [left]; rfl)
    | number name => exact .passed inside (by rw [left]; rfl)
    | _ => exact .failed (by simp) (by rw [left]; rfl)

theorem takeDoc_plain {token : Token} (plain : Parser.isDoc token = false) (rest : List Token) :
    Parser.takeDoc (token :: rest) = (none, token :: rest) := by
  rcases token with ⟨lexeme, start, line⟩
  cases lexeme with
  | doc text => cases plain
  | _ => rfl

/-- What a comment documents is decided by the token behind it, if there is one. -/
theorem takeDoc_comment {comment : Token} {text : String} (lexeme : comment.lexeme = .doc text)
    (all : List Token) (pos : Nat) :
    Parser.takeDoc (comment :: all.drop pos) =
      (if (all.drop pos).head?.any Parser.isDoc then (Parser.takeDoc (all.drop pos)).1
        else attached text comment all[pos]?, (Parser.takeDoc (all.drop pos)).2) := by
  have isComment : Parser.isDoc comment = true := by rw [Parser.isDoc, lexeme]
  rcases drop_cases all pos with ⟨nothing, left⟩ | ⟨next, found, left, -⟩
  · have alone : Parser.takeDoc [comment] = (none, []) := by rw [Parser.takeDoc, lexeme]
    rw [nothing, left, alone]
    rfl
  · cases comment' : Parser.isDoc next with
    | true =>
        rw [left, takeDoc_doc_doc isComment comment', List.head?_cons, Option.any_some, comment']
        rfl
    | false =>
        rw [found, left, takeDoc_doc_plain lexeme comment', List.head?_cons, Option.any_some,
          comment', takeDoc_plain comment']
        rfl

/-- Comments are passed over by both.  What was known before counts only where there is none. -/
theorem exists_docFrom (doc : Option String) (inside : pos ≤ all.length) :
    ∃ next, docFrom all doc pos =
        (if (all.drop pos).head?.any Parser.isDoc then (Parser.takeDoc (all.drop pos)).1 else doc,
          next) ∧
      (Parser.takeDoc (all.drop pos)).2 = all.drop next ∧ pos ≤ next ∧ next ≤ all.length := by
  fun_induction docFrom all doc pos with
  | case1 doc pos nothing =>
      have left := List.drop_eq_nil_of_le (List.getElem?_eq_none_iff.1 nothing)
      exact ⟨pos, by rw [left]; rfl, by rw [left]; rfl, Nat.le_refl _, inside⟩
  | case2 doc pos comment found text lexeme ih =>
      rcases ih (List.getElem?_eq_some_iff.1 found).1 with ⟨next, moved, behind, further, within⟩
      have left := drop_of_found found
      have isComment : Parser.isDoc comment = true := by rw [Parser.isDoc, lexeme]
      -- The comment hides what was known before, and later comments hide it in turn.
      rw [left, takeDoc_comment lexeme, List.head?_cons, Option.any_some, isComment, if_pos rfl]
      exact ⟨next, moved, behind, Nat.le_of_succ_le further, within⟩
  | case3 doc pos token found other =>
      have plain : Parser.isDoc token = false := by
        rw [Parser.isDoc]
        split
        · rename_i lexeme
          exact absurd lexeme (other _)
        · rfl
      have left := drop_of_found found
      rw [left, takeDoc_plain plain]
      refine ⟨pos, ?_, left.symm, Nat.le_refl _, inside⟩
      rw [List.head?_cons, Option.any_some, plain]
      rfl

/-- So are they by a head that knows of no documentation yet. -/
theorem exists_takeDoc (inside : pos ≤ all.length) :
    ∃ doc next, takeDoc all pos = .ok (doc, next) ∧
      Parser.takeDoc (all.drop pos) = (doc, all.drop next) ∧ pos ≤ next ∧ next ≤ all.length := by
  rcases exists_docFrom none inside with ⟨next, moved, behind, ahead, within⟩
  refine ⟨(Parser.takeDoc (all.drop pos)).1, next, ?_, Prod.ext rfl behind, ahead, within⟩
  rw [takeDoc, moved]
  rcases drop_cases all pos with ⟨-, left⟩ | ⟨token, -, left, -⟩
  · rw [left]
    rfl
  · cases comment : Parser.isDoc token with
    | true => rw [left, List.head?_cons, Option.any_some, comment, if_pos rfl]
    | false =>
        rw [left, List.head?_cons, Option.any_some, comment, takeDoc_plain comment]
        rfl

/-- The modifier of a member is found by both. -/
theorem exists_takeReadonly (inside : pos ≤ all.length) :
    ∃ isReadonly next, takeReadonly all pos = .ok (isReadonly, next) ∧
      Parser.takeReadonly (all.drop pos) = (isReadonly, all.drop next) ∧
        pos ≤ next ∧ next ≤ all.length := by
  rw [takeReadonly, Parser.takeReadonly, eatWord_eq, eatLexeme_drop]
  have seen : peek all pos = .ok (all[pos]?.map Token.lexeme, pos) := rfl
  by_cases there : all[pos]?.map Token.lexeme = some (.word "readonly")
  · have within := lt_length_of_peek there
    rw [if_pos there, bind_of_ok seen, if_pos there]
    -- The token behind decides whether the word is the name of a property.
    rcases drop_cases all (pos + 1) with ⟨nothing, left⟩ | ⟨⟨lexeme, start, line⟩, found, left, -⟩
    · have behind : peekNext all pos = .ok (none, pos) := by
        rw [peekNext, nothing, Option.map_none]
      rw [bind_of_ok behind, left]
      exact ⟨true, pos + 1, rfl, by rw [left], Nat.le_succ _, within⟩
    · have behind : peekNext all pos = .ok (some lexeme, pos) := by
        rw [peekNext, found, Option.map_some]
      rw [bind_of_ok behind, left]
      cases lexeme with
      | mark sign =>
          by_cases ends : [':', '?', ';', ',', '}'].contains sign = true
          · exact ⟨false, pos, by simp only [if_pos ends]; rfl, if_pos ends, Nat.le_refl _, inside⟩
          · refine ⟨true, pos + 1, by simp only [if_neg ends]; rfl, ?_, Nat.le_succ _, within⟩
            rw [left]
            exact if_neg ends
      | _ => exact ⟨true, pos + 1, rfl, by rw [left]; rfl, Nat.le_succ _, within⟩
  · rw [if_neg there, bind_of_ok seen, if_neg there]
    exact ⟨false, pos, rfl, rfl, Nat.le_refl _, inside⟩

theorem exists_token_of_peek {lexeme : Lexeme} (h : all[pos]?.map Token.lexeme = some lexeme) :
    ∃ start line, all.drop pos = ⟨lexeme, start, line⟩ :: all.drop (pos + 1) := by
  rcases Option.map_eq_some_iff.1 h with ⟨⟨lexeme, start, line⟩, found, rfl⟩
  exact ⟨start, line, drop_of_found found⟩

theorem peek_of_drop {lexeme : Lexeme} {start : Position} {line : Nat} {rest : List Token}
    (left : all.drop pos = ⟨lexeme, start, line⟩ :: rest) :
    all[pos]?.map Token.lexeme = some lexeme := by
  rw [← List.head?_drop, left]
  rfl

theorem dotted_agrees (name : String) (inside : pos ≤ all.length) :
    Agrees all pos False (dotted name all pos) (Parser.dotted name (all.drop pos)) := by
  rw [dotted]
  fun_induction dottedFrom all name pos with
  | case1 name pos point part word ih =>
      rcases exists_token_of_peek point with ⟨start, line, left⟩
      rcases exists_token_of_peek word with ⟨start', line', left'⟩
      rw [left, left', Parser.dotted]
      exact (ih (lt_length_of_peek word)).mono (Nat.le_add_right _ _) id
  | case2 name pos point other =>
      rcases exists_token_of_peek point with ⟨start, line, left⟩
      have failed : Parser.dotted name (all.drop pos) =
          .error ⟨.expectedIdentifier, all.drop (pos + 1)⟩ := by
        rw [left, Parser.dotted]
        · rfl
        · exact fun part start line rest left' => other part (peek_of_drop left')
      rw [failed]
      exact .fault _ (by simp)
  | case3 name pos other =>
      have ended : Parser.dotted name (all.drop pos) = .ok (name, all.drop pos) := by
        rw [Parser.dotted]
        exact fun start line rest left => other (peek_of_drop left)
      rw [ended]
      exact .ok name (Nat.le_refl _) inside

/-- What ends a member is passed over by both. -/
theorem Agrees.memberEnd {next : Unit → Head α}
    {next' : List Token → Except Failure (α × List Token)} (inside : pos ≤ all.length)
    (continued : ∀ mid, pos ≤ mid → mid ≤ all.length →
      Agrees all low short (next () all mid) (next' (all.drop mid))) :
    Agrees all low short ((Head.memberEnd >>= next) all pos)
      (Parser.memberEnd (all.drop pos) >>= next') := by
  rw [Parser.memberEnd, eatMark_eq, eatMark_eq, eatMark_eq, Head.memberEnd, bind_assoc]
  rcases eat_cases (.mark ';') all pos with ⟨moved, left⟩ | ⟨moved, left, within⟩
  · rw [bind_of_ok moved, left, if_neg Bool.false_ne_true, bind_assoc]
    rcases eat_cases (.mark ',') all pos with ⟨moved, left⟩ | ⟨moved, left, within⟩
    · have seen : peek all pos = .ok (all[pos]?.map Token.lexeme, pos) := rfl
      rw [bind_of_ok moved, left, if_neg Bool.false_ne_true, bind_assoc, bind_of_ok seen,
        eatLexeme_drop]
      by_cases there : all[pos]?.map Token.lexeme = some (.mark '}')
      · rw [if_pos there, if_pos there]
        exact continued pos (Nat.le_refl _) inside
      · rw [if_neg there, if_neg there]
        exact .fault pos (by simp)
    · rw [bind_of_ok moved, left]
      exact continued (pos + 1) (Nat.le_succ _) within
  · rw [bind_of_ok moved, left]
    exact continued (pos + 1) (Nat.le_succ _) within

end Head

end HyperSchema
