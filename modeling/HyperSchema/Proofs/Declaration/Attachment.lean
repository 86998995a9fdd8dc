import HyperSchema.Proofs.Declaration.Gaps
import HyperSchema.Proofs.Declaration.Spans

/-!
# Attachment — which comment documents what

A documentation comment in front of a declaration or a member becomes its documentation or is lost.
This file defines:

* `Parser.Spans.takeDoc_of_mem`: the comment right in front of a subject is the one that was looked
  at for its documentation;
* `Parser.Spans.exists_of_doc`: only subjects and closing signs stand behind comments;
* `Declaration.StandsBefore`, a comment in a text that stands before some token with only a gap
  between, and `Declaration.hasBlankLine`, a gap with a blank line;
* `Declaration.doc_of_standsBefore`: whether the comment becomes the documentation depends only on
  the line feeds in the gap, those of remarks included.
-/

namespace HyperSchema

namespace Parser

variable {tokens behind middle rest : List Token} {doc : Option String} {token other next : Token}
  {located : List (Subject × List Token)} {subject : Subject}

/-! ## Comments in front of a token -/

/-- What is looked at for documentation is a run of comments, and it ends in front of another token
or at the end. -/
theorem exists_of_takeDoc (h : takeDoc tokens = (doc, behind)) :
    ∃ comments, tokens = comments ++ behind ∧ (∀ token ∈ comments, isDoc token = true) ∧
      ∀ token ∈ behind.head?, isDoc token = false := by
  have atEnd : ∀ token ∈ ([] : List Token).head?, isDoc token = false := by
    intro token mem
    cases mem
  fun_induction takeDoc tokens with
  | case1 =>
      cases h
      exact ⟨[], rfl, List.forall_mem_nil _, atEnd⟩
  | case2 token text lexeme =>
      cases h
      exact ⟨[token], rfl, List.forall_mem_singleton.2 (by rw [isDoc, lexeme]), atEnd⟩
  | case3 token text lexeme next others isComment ih =>
      rcases ih h with ⟨comments, split, all, ends⟩
      refine ⟨token :: comments, by rw [split, List.cons_append], ?_, ends⟩
      exact List.forall_mem_cons.2 ⟨by rw [isDoc, lexeme], all⟩
  | case4 token text lexeme next others other =>
      cases h
      refine ⟨[token], rfl, List.forall_mem_singleton.2 (by rw [isDoc, lexeme]), ?_⟩
      rintro _ ⟨⟩
      simpa using other
  | case5 token others noDoc =>
      cases h
      refine ⟨[], rfl, List.forall_mem_nil _, ?_⟩
      rintro _ ⟨⟩
      unfold isDoc
      split
      · rename_i lexeme
        exact absurd lexeme (noDoc _)
      · rfl

theorem takeDoc_doc_doc (comment : isDoc token = true) (comment' : isDoc next = true) :
    takeDoc (token :: next :: rest) = takeDoc (next :: rest) := by
  rw [takeDoc]
  split
  · exact if_pos comment'
  · rename_i noDoc
    unfold isDoc at comment
    split at comment
    · rename_i lexeme
      exact absurd lexeme (noDoc _)
    · cases comment

theorem takeDoc_doc_plain {text : String} (comment : token.lexeme = .doc text)
    (plain : isDoc next = false) :
    takeDoc (token :: next :: rest) =
      (if next.start.line ≤ token.endLine + 1 then some text else none, next :: rest) := by
  rw [takeDoc, comment]
  dsimp only
  rw [plain]
  rfl

/-- Of a run of comments only the last counts. -/
theorem takeDoc_of_last {comments : List Token} (all : ∀ other ∈ comments, isDoc other = true)
    (comment : isDoc token = true) :
    takeDoc (comments ++ token :: rest) = takeDoc (token :: rest) := by
  induction comments with
  | nil => rfl
  | cons first others ih =>
      rw [List.forall_mem_cons] at all
      rw [← ih all.2]
      cases others with
      | nil => exact takeDoc_doc_doc all.1 comment
      | cons second others => exact takeDoc_doc_doc all.1 (all.2 second List.mem_cons_self)

/-- The last comment of a run gives the documentation of what stands behind the run. -/
theorem takeDoc_of_suffix (h : takeDoc tokens = (doc, behind)) (comment : isDoc token = true)
    (last : token :: behind <:+ tokens) : takeDoc (token :: behind) = (doc, behind) := by
  rcases exists_of_takeDoc h with ⟨comments, split, all, _⟩
  rcases last with ⟨before, same⟩
  have run : (before ++ [token]) ++ behind = comments ++ behind := by
    rw [← split, ← same, List.append_assoc]
    rfl
  rw [← List.append_cancel_right run, List.forall_mem_append] at all
  rw [← h, ← same, takeDoc_of_last all.1 comment]

/-- A comment behind the token that stands behind a run of comments. -/
theorem suffix_behind (h : takeDoc tokens = (doc, token :: behind)) (comment : isDoc other = true)
    (stands : other :: rest <:+ tokens) (inside : rest.length ≤ behind.length) :
    other :: rest <:+ behind := by
  rcases exists_of_takeDoc h with ⟨comments, split, _, plain⟩
  have whole : token :: behind <:+ tokens := ⟨comments, split.symm⟩
  have within := List.suffix_of_suffix_length_le stands whole (Nat.succ_le_succ inside)
  rcases List.suffix_cons_iff.1 within with same | within
  · cases same
    rw [plain _ rfl] at comment
    cases comment
  · exact within

/-- A token that is no comment does not stand in a run of comments. -/
theorem plain_suffix (h : takeDoc tokens = (doc, behind)) (plain : isDoc next = false)
    (stands : next :: rest <:+ tokens) : next :: rest <:+ behind := by
  rcases exists_of_takeDoc h with ⟨comments, rfl, all, _⟩
  rcases List.suffix_or_suffix_of_suffix stands (List.suffix_append comments behind) with
    within | within
  · exact within
  rcases List.suffix_cons_iff.1 within with same | ⟨others, same⟩
  · exact same ▸ List.suffix_refl _
  · -- Otherwise it is one of the comments.
    rcases stands with ⟨before, split⟩
    have run : (before ++ next :: others) ++ behind = comments ++ behind := by
      rw [← split, ← same, List.append_assoc]
      rfl
    have mem : next ∈ comments := by
      rw [← List.append_cancel_right run]
      exact List.mem_append_right _ List.mem_cons_self
    rw [all next mem] at plain
    cases plain

/-! ## Comments in front of subjects -/

theorem suffix_of_takeDoc (h : takeDoc tokens = (doc, behind)) : behind <:+ tokens := by
  rcases exists_of_takeDoc h with ⟨comments, split, _, _⟩
  exact ⟨comments, split.symm⟩

theorem Spans.suffix (h : Spans tokens located rest) : rest <:+ tokens := by
  induction h with
  | done => exact List.suffix_refl _
  | past _ _ ih => exact ih.trans (List.suffix_cons _ _)
  | closer found _ _ ih => exact (ih.trans (List.suffix_cons _ _)).trans (suffix_of_takeDoc found)
  | stop found => exact suffix_of_takeDoc found
  | subject found _ _ _ _ inner others =>
      exact ((others.trans inner).trans (List.suffix_cons _ _)).trans (suffix_of_takeDoc found)

theorem Spans.suffix_of_mem (h : Spans tokens located rest) (mem : (subject, behind) ∈ located) :
    behind <:+ tokens ∧ behind ≠ [] := by
  induction h with
  | done => cases mem
  | past _ _ ih => exact ⟨(ih mem).1.trans (List.suffix_cons _ _), (ih mem).2⟩
  | closer found _ _ ih =>
      rcases ih mem with ⟨within, some⟩
      exact ⟨(within.trans (List.suffix_cons _ _)).trans (suffix_of_takeDoc found), some⟩
  | stop => cases mem
  | subject found _ _ inner _ ihInner ihOthers =>
      have whole := suffix_of_takeDoc found
      rcases List.mem_cons.1 mem with same | mem
      · cases same
        exact ⟨whole, List.cons_ne_nil _ _⟩
      have inside := (List.suffix_cons _ _).trans whole
      rcases List.mem_append.1 mem with mem | mem
      · exact ⟨(ihInner mem).1.trans inside, (ihInner mem).2⟩
      · exact ⟨((ihOthers mem).1.trans inner.suffix).trans inside, (ihOthers mem).2⟩

/-- No comment is the last token of what is held, unless nothing follows. -/
theorem Spans.eq_nil_of_last (h : Spans tokens located rest) (comment : isDoc other = true)
    (last : other :: rest <:+ tokens) : rest = [] := by
  induction h with
  | done tokens => exact absurd last.length_le (Nat.not_succ_le_self _)
  | past plain _ ih =>
      rcases List.suffix_cons_iff.1 last with same | last
      · cases same
        rw [plain] at comment
        cases comment
      · exact ih last
  | closer found _ spans ih => exact ih (suffix_behind found comment last spans.suffix.length_le)
  | stop => rfl
  | @subject _ _ _ behind middle rest _ _ found _ _ inner others ihInner ihOthers =>
      have behindLast :=
        suffix_behind found comment last (others.suffix.trans inner.suffix).length_le
      rcases Nat.lt_or_ge rest.length middle.length with shorter | longer
      · exact ihOthers (List.suffix_of_suffix_length_le behindLast inner.suffix shorter)
      · -- Nothing was read behind the subject.
        obtain rfl := others.suffix.eq_of_length_le longer
        exact ihInner behindLast

/-- Where a comment stands right in front of a subject, it is the one that was looked at. -/
theorem Spans.takeDoc_of_mem (h : Spans tokens located rest) (mem : (subject, behind) ∈ located)
    (comment : isDoc other = true) (stands : other :: behind <:+ tokens) :
    takeDoc (other :: behind) = (subject.doc, behind) := by
  induction h with
  | done => cases mem
  | past plain _ ih =>
      rcases List.suffix_cons_iff.1 stands with same | stands
      · cases same
        rw [plain] at comment
        cases comment
      · exact ih mem stands
  | closer found _ spans ih =>
      exact ih mem (suffix_behind found comment stands (spans.suffix_of_mem mem).1.length_le)
  | stop => cases mem
  | subject found _ _ inner others ihInner ihOthers =>
      rcases List.mem_cons.1 mem with same | mem
      · cases same
        exact takeDoc_of_suffix found comment stands
      rcases List.mem_append.1 mem with mem | mem
      · exact ihInner mem
          (suffix_behind found comment stands (inner.suffix_of_mem mem).1.length_le)
      · rcases others.suffix_of_mem mem with ⟨within, some⟩
        have behindStands :=
          suffix_behind found comment stands (within.trans inner.suffix).length_le
        rcases Nat.lt_or_ge behind.length _ with shorter | longer
        · exact ihOthers mem
            (List.suffix_of_suffix_length_le behindStands inner.suffix shorter)
        · -- The subject starts where the one before it ends, which is behind no comment.
          obtain rfl := within.eq_of_length_le longer
          exact absurd (inner.eq_nil_of_last comment behindStands) some

/-- Only subjects and closing signs stand behind comments. -/
theorem Spans.exists_of_doc (h : Spans tokens located rest) (comment : isDoc other = true)
    (plain : isDoc next = false) (opens : isCloser next = false)
    (stands : other :: next :: behind <:+ tokens) (inside : rest <:+ behind) :
    ∃ subject, (subject, next :: behind) ∈ located := by
  have shorter : next :: behind <:+ tokens := (List.suffix_cons _ _).trans stands
  induction h with
  | done tokens =>
      have longer := (shorter.trans inside).length_le
      exact absurd longer (Nat.not_succ_le_self _)
  | past plain' _ ih =>
      rcases List.suffix_cons_iff.1 stands with same | stands
      · cases same
        rw [plain'] at comment
        cases comment
      · exact ih stands inside ((List.suffix_cons _ _).trans stands)
  | closer found closes _ ih =>
      rcases List.suffix_cons_iff.1 (plain_suffix found plain shorter) with same | within
      · cases same
        rw [closes] at opens
        cases opens
      · exact ih (suffix_behind found comment stands within.length_le) inside within
  | stop found =>
      have absent := List.suffix_nil.1 (plain_suffix found plain shorter)
      cases absent
  | @subject _ _ _ _ middle _ _ _ found _ _ inner others ihInner ihOthers =>
      rcases List.suffix_cons_iff.1 (plain_suffix found plain shorter) with same | within
      · cases same
        exact ⟨_, List.mem_cons_self⟩
      have stands := suffix_behind found comment stands within.length_le
      -- The comment stands inside the subject or behind it.
      rcases Nat.lt_or_ge (next :: behind).length middle.length with longer | shorter'
      · have stands' := List.suffix_of_suffix_length_le stands inner.suffix longer
        rcases ihOthers stands' inside ((List.suffix_cons _ _).trans stands') with ⟨found, mem⟩
        exact ⟨found, List.mem_cons_of_mem _ (List.mem_append_right _ mem)⟩
      · rcases List.suffix_cons_iff.1
          (List.suffix_of_suffix_length_le inner.suffix within shorter') with same | inside'
        · cases same
          cases inner.eq_nil_of_last comment stands
        · rcases ihInner stands inside' within with ⟨found, mem⟩
          exact ⟨found, List.mem_cons_of_mem _ (List.mem_append_left _ mem)⟩

end Parser

/-! ## Attachment -/

namespace Declaration

open HyperSchema.Lexer HyperSchema.Parser

variable {source : String} {body gap : List Char} {next : Token} {others : List Token}

/-- A documentation comment as it is written. -/
def blockSpelling (body : List Char) : List Char :=
  '/' :: '*' :: '*' :: (body ++ ['*', '/'])

/-- In a source stands a documentation comment, behind it a gap, and behind the gap start the given
tokens. -/
def StandsBefore (source : String) (body gap : List Char) (next : Token) (others : List Token) :
    Prop :=
  ∃ before here rest,
    Passes ⟨.first, source.toList⟩ before ⟨here, blockSpelling body ++ (gap ++ rest)⟩ ∧
      Text.hasInfix ['*', '/'] ('*' :: body) = false ∧ IsGap gap ∧
        next.start = here.advanceAll (blockSpelling body ++ gap) ∧
          tokensFrom next.start rest = .ok (next :: others)

/-- Whether a whole line of a gap is blank.  What stands in front of the first line feed and behind
the last belongs to the lines of the comment and of the token behind the gap. -/
def hasBlankLine (gap : List Char) : Bool :=
  (Text.splitOn '\n' gap).tail.dropLast.any fun line => line.all Text.isBlank

theorem two_le_count_of_hasBlankLine (h : hasBlankLine gap = true) : 2 ≤ gap.count '\n' := by
  rcases List.any_eq_true.1 h with ⟨line, mem, _⟩
  have some := List.length_pos_of_mem mem
  rw [List.length_dropLast, List.length_tail, Text.length_splitOn] at some
  omega

/-- The comment is a token, and the tokens behind the gap follow it. -/
theorem StandsBefore.exists_comment {tokens : List Token}
    (h : StandsBefore source body gap next others) (read : Lexer.tokens source = .ok tokens) :
    ∃ comment : Token, comment.lexeme = .doc (docText body) ∧
      next.start.line = comment.endLine + gap.count '\n' ∧
        comment :: next :: others <:+ tokens := by
  rcases h with ⟨before, here, rest, passed, free, isGap, start, behind⟩
  have split : blockSpelling body ++ (gap ++ rest) =
      '/' :: '*' :: '*' :: (body ++ '*' :: '/' :: (gap ++ rest)) := by
    simp [blockSpelling]
  rw [split] at passed
  let comment : Token :=
    ⟨.doc (docText body), here, (here.advanceAll (blockSpelling body)).line⟩
  have through :
      Passes ⟨here, '/' :: '*' :: '*' :: (body ++ '*' :: '/' :: (gap ++ rest))⟩ [comment]
        ⟨(here.advanceAll (blockSpelling body)).advanceAll gap, rest⟩ :=
    .step (step_doc free) (isGap.passes _ rest)
  rw [Position.advanceAll_append] at start
  refine ⟨comment, rfl, ?_, ?_⟩
  · rw [start, Position.line_advanceAll]
  · have all := (passed.trans through).tokensFrom
    dsimp only at all
    rw [Lexer.tokens] at read
    rw [read, ← start, behind] at all
    cases all
    exact ⟨before, (List.append_assoc before [comment] (next :: others)).symm⟩

/-- In a source that can be read, each declaration and each member starts at some of its tokens.
Where a documentation comment stands before one of them, with only a gap between, its text is the
documentation if the gap has at most one line feed in it, and there is no documentation if it has
more.  So comments and blanks count alike, and the rule that only blank lines separate is kept
exactly where the gap has at most one line feed or a blank line.  Other than declarations and
members, only closing signs and further comments can stand behind a comment. -/
theorem doc_of_standsBefore {found : List Declaration} (h : parse source = .ok found) :
    ∃ tokens located, Lexer.tokens source = .ok tokens ∧ Spans tokens located [] ∧
      located.map Prod.fst = subjects found ∧
      ∀ body gap next others, StandsBefore source body gap next others →
        (isDoc next = true ∨ isCloser next = true ∨
          ∃ subject, (subject, next :: others) ∈ located) ∧
        ∀ subject, (subject, next :: others) ∈ located →
          subject.doc = (if gap.count '\n' ≤ 1 then some (docText body) else none) ∧
          ((subject.doc = some (docText body) ↔ hasBlankLine gap = false) ↔
            gap.count '\n' ≤ 1 ∨ hasBlankLine gap = true) := by
  unfold parse at h
  split at h
  · cases h
  rename_i tokens read
  split at h
  · rename_i declarations found'
    cases h
    rcases holds_declarations found' with ⟨located, same, spans⟩
    refine ⟨tokens, located, read, spans, same, fun body gap next others stands => ?_⟩
    rcases stands.exists_comment read with ⟨comment, lexeme, line, suffix⟩
    have isComment : isDoc comment = true := by rw [isDoc, lexeme]
    constructor
    · by_cases another : isDoc next = true
      · exact .inl another
      by_cases closes : isCloser next = true
      · exact .inr (.inl closes)
      · exact .inr (.inr (spans.exists_of_doc isComment (eq_false_of_ne_true another)
          (eq_false_of_ne_true closes) suffix List.nil_suffix))
    · intro subject mem
      have seen := spans.takeDoc_of_mem mem isComment suffix
      rcases exists_of_takeDoc seen with ⟨_, _, _, plain⟩
      rw [takeDoc_doc_plain lexeme (plain next rfl), Prod.mk.injEq] at seen
      have doc : subject.doc = if gap.count '\n' ≤ 1 then some (docText body) else none := by
        rw [← seen.1, line]
        simp only [Nat.add_le_add_iff_left]
      refine ⟨doc, ?_⟩
      rw [doc]
      split
      · rename_i few
        have noBlank : hasBlankLine gap = false := by
          refine eq_false_of_ne_true fun blank => ?_
          have several := two_le_count_of_hasBlankLine blank
          omega
        simp [few, noBlank]
      · rename_i many
        simp [many]
  · cases h

/-- A declaration with a remark between its comment and itself. -/
def remarkedSource : String := "/** A */\n// note\nexport type A = string;"

/-- What is read of it. -/
def remarkedAlias : Declaration :=
  { name := "A", doc := none, params := [], body := .alias (.keyword .string), isExported := true }

/-- The tokens behind the remark. -/
def remarkedTokens : List Token :=
  [⟨.word "type", ⟨3, 8⟩, 3⟩, ⟨.word "A", ⟨3, 13⟩, 3⟩, ⟨.mark '=', ⟨3, 15⟩, 3⟩,
    ⟨.word "string", ⟨3, 17⟩, 3⟩, ⟨.mark ';', ⟨3, 23⟩, 3⟩]

theorem parse_remarkedSource : parse remarkedSource = .ok [remarkedAlias] := by
  have read : Lexer.tokens remarkedSource =
      .ok (⟨.doc "A", ⟨1, 1⟩, 1⟩ :: ⟨.word "export", ⟨3, 1⟩, 3⟩ :: remarkedTokens) := by
    decide +kernel
  unfold parse
  rw [read]
  rfl

theorem standsBefore_remarkedSource :
    StandsBefore remarkedSource " A ".toList "\n// note\n".toList ⟨.word "export", ⟨3, 1⟩, 3⟩
      remarkedTokens := by
  have note : IsGap ('/' :: '/' :: (" note".toList ++ '\n' :: [])) :=
    .remark (by decide) .nil
  exact ⟨[], ⟨1, 1⟩, "export type A = string;".toList, .refl _, by decide,
    .blank (by decide) note, by decide, by decide +kernel⟩

/-- No blank line lies between the comment and the declaration, and still the comment is not its
documentation. -/
theorem doc_ne_of_remarkedSource :
    parse remarkedSource = .ok [remarkedAlias] ∧
      StandsBefore remarkedSource " A ".toList "\n// note\n".toList ⟨.word "export", ⟨3, 1⟩, 3⟩
        remarkedTokens ∧
      hasBlankLine "\n// note\n".toList = false ∧
      ∃ tokens located, Lexer.tokens remarkedSource = .ok tokens ∧ Spans tokens located [] ∧
        (.declaration remarkedAlias, ⟨.word "export", ⟨3, 1⟩, 3⟩ :: remarkedTokens) ∈ located ∧
        (Subject.declaration remarkedAlias).doc ≠ some (docText " A ".toList) := by
  refine ⟨parse_remarkedSource, standsBefore_remarkedSource, by decide, ?_⟩
  rcases doc_of_standsBefore parse_remarkedSource with ⟨tokens, located, read, spans, same, all⟩
  rcases all _ _ _ _ standsBefore_remarkedSource with ⟨starts, docs⟩
  rcases starts with another | closes | ⟨subject, mem⟩
  · cases another
  · cases closes
  · have only : subject ∈ subjects [remarkedAlias] := same ▸ List.mem_map_of_mem mem
    obtain rfl := List.mem_singleton.1 only
    refine ⟨tokens, located, read, spans, mem, ?_⟩
    rw [(docs _ mem).1]
    decide

end Declaration

end HyperSchema
