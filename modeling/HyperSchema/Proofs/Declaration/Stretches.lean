import HyperSchema.Proofs.Declaration.Literals

/-!
# Stretches — the grammar of a step

A step of the lexer passes a stretch of the text: a blank, a comment, or the spelling of a token.
This file defines:

* `Lexer.Stretch`, the stretches, each with the lexeme that it gives and the text it stands in front
  of;
* `Lexer.Stretch.step` and `Lexer.exists_stretch`: a step passes a stretch if and only if it
  succeeds;
* `Lexer.Stretch.of_head?` and `Lexer.Stretch.lexeme_of_head?`, what may change behind a stretch.
-/

namespace HyperSchema

namespace Lexer

variable {here : Position} {c : Char} {text body rest behind behind' passed : List Char}

/-- The next character, if there is one, does not have a property. -/
def Ends (p : Char → Bool) (behind : List Char) : Prop :=
  ∀ c ∈ behind.head?, p c = false

/-- What a step passes: the lexeme that it gives, how this is written, and what it is written in
front of. -/
inductive Stretch : Option Lexeme → List Char → List Char → Prop
  | blank {c : Char} {behind : List Char} : Text.isBlank c = true → Stretch none [c] behind
  /-- A comment up to the end of its line, which stays. -/
  | remark {text behind : List Char} : '\n' ∉ text → Ends (· != '\n') behind →
      Stretch none ('/' :: '/' :: text) behind
  | block {text behind : List Char} : Text.hasInfix ['*', '/'] text = false →
      text.head? ≠ some '*' → Stretch none ('/' :: '*' :: (text ++ ['*', '/'])) behind
  | doc {body behind : List Char} : Text.hasInfix ['*', '/'] ('*' :: body) = false →
      Stretch (some (.doc (Declaration.docText body)))
        ('/' :: '*' :: '*' :: (body ++ ['*', '/'])) behind
  | text {quote : Char} {value body behind : List Char} : isQuote quote = true →
      Spells quote (quote :: behind) value body →
        Stretch (some (.text (String.ofList value))) (quote :: (body ++ [quote])) behind
  | point {behind : List Char} : behind.head? ≠ some '.' → Stretch (some (.mark '.')) ['.'] behind
  | ellipsis {behind : List Char} : Stretch (some .ellipsis) ['.', '.', '.'] behind
  | number {digits behind : List Char} : isNumeral digits = true → Ends continuesNumber behind →
      Stretch (some (.number (String.ofList digits))) digits behind
  | word {name behind : List Char} : isIdentifier name = true → Ends continuesWord behind →
      Stretch (some (.word (String.ofList name))) name behind
  | mark {sign : Char} {behind : List Char} : sign ∈ marks →
      Stretch (some (.mark sign)) [sign] behind

/-- The token of a stretch at a place. -/
def tokenOf (lexeme? : Option Lexeme) (here : Position) (passed : List Char) : Option Token :=
  lexeme?.map fun lexeme => ⟨lexeme, here, (here.advanceAll passed).line⟩

/-! ## Every stretch is passed -/

variable {lexeme? : Option Lexeme}

/-- A stretch is passed by a step that gives its token. -/
theorem Stretch.step (h : Stretch lexeme? passed behind) (whole : passed = c :: text)
    (here : Position) :
    Lexer.step here c (text ++ behind) =
      .ok (tokenOf lexeme? here passed, ⟨here.advanceAll passed, behind⟩) := by
  -- The tokens that the printer writes are known to be read.
  have reads {lexeme : Lexeme} (known : (Piece.token lexeme passed).Reads behind) :
      Lexer.step here c (text ++ behind) =
        .ok (tokenOf (some lexeme) here passed, ⟨here.advanceAll passed, behind⟩) := by
    rcases known with ⟨_, _, spelt, read⟩
    obtain ⟨rfl, rfl⟩ := List.cons.inj (whole.symm.trans spelt)
    exact read here
  have inside (more : List Char) : more ++ ['*', '/'] ++ behind = more ++ '*' :: '/' :: behind := by
    rw [List.append_assoc]
    rfl
  cases h with
  | blank blank =>
      cases whole
      exact step_blank blank
  | remark free ends =>
      cases whole
      exact step_remark free ends
  | @block comment _ free plain =>
      cases whole
      rw [List.cons_append, inside]
      exact step_plainBlock free plain
  | doc free =>
      cases whole
      rw [List.cons_append, List.cons_append, inside]
      exact step_doc free
  | @text quote value body _ isQ spells =>
      cases whole
      have spelt : (String.ofList value).toList = value := String.toList_ofList
      rw [List.append_assoc]
      exact step_of_spells isQ (spelt.symm ▸ spells) here
  | point other => exact reads (Piece.reads_point other)
  | ellipsis => exact reads (Piece.reads_ellipsis behind)
  | number numeral ends => exact reads (Piece.reads_number numeral ends)
  | word identifier ends =>
      have spelt : (String.ofList passed).toList = passed := String.toList_ofList
      have known := Piece.reads_word (spelt.symm ▸ identifier) ends
      rw [Piece.word, spelt] at known
      exact reads known
  | mark mem => exact reads (Piece.reads_mark mem behind)

/-! ## Every step passes a stretch -/

/-- The longest run of characters with a property. -/
theorem exists_run (p : Char → Bool) (text : List Char) :
    ∃ taken behind, text = taken ++ behind ∧ taken.all p = true ∧ Ends p behind := by
  refine ⟨text.takeWhile p, text.dropWhile p, List.takeWhile_append_dropWhile.symm,
    List.all_takeWhile, ?_⟩
  intro c mem
  have first := List.head?_dropWhile_not p text
  rwa [Option.mem_def.1 mem] at first

theorem eq_append_of_commentBody {next : Cursor} (h : commentBody here text = .ok (body, next)) :
    text = body ++ '*' :: '/' :: next.text := by
  fun_induction commentBody here text generalizing body with
  | case1 => cases h
  | case2 here rest =>
      cases h
      rfl
  | case3 here c rest _ body' next' read ih =>
      cases h
      rw [List.cons_append, ← ih read]
  | case4 => cases h

theorem exists_stretch_slash {read : Option Token × Cursor}
    (h : Lexer.step here '/' rest = .ok read) :
    ∃ lexeme? more behind, rest = more ++ behind ∧ Stretch lexeme? ('/' :: more) behind := by
  rw [step_slash] at h
  unfold slash at h
  split at h
  · rename_i more
    rcases exists_run (· != '\n') more with ⟨taken, behind, rfl, all, ends⟩
    have free : '\n' ∉ taken := fun mem => absurd (List.all_eq_true.1 all _ mem) (by decide)
    exact ⟨none, '/' :: taken, behind, rfl, .remark free ends⟩
  · rename_i more
    cases closed : commentBody ((here.advance '/').advance '*') more with
    | error e =>
        rw [closed] at h
        cases h
    | ok found =>
        rcases found with ⟨body, next⟩
        have free := hasInfix_commentBody closed
        obtain rfl := eq_append_of_commentBody closed
        have split : '*' :: (body ++ '*' :: '/' :: next.text) =
            '*' :: (body ++ ['*', '/']) ++ next.text := by
          simp
        -- A second star in front makes it a documentation comment.
        by_cases star : body.head? = some '*'
        · rcases List.head?_eq_some_iff.1 star with ⟨body, rfl⟩
          exact ⟨_, _, next.text, split, .doc free⟩
        · exact ⟨none, _, next.text, split, .block free star⟩
  · cases h

theorem exists_stretch_point {read : Option Token × Cursor}
    (h : Lexer.step here '.' rest = .ok read) :
    ∃ lexeme? more behind, rest = more ++ behind ∧ Stretch lexeme? ('.' :: more) behind := by
  by_cases second : rest.head? = some '.'
  · rcases List.head?_eq_some_iff.1 second with ⟨more, rfl⟩
    by_cases third : more.head? = some '.'
    · rcases List.head?_eq_some_iff.1 third with ⟨more, rfl⟩
      exact ⟨_, ['.', '.'], more, rfl, .ellipsis⟩
    · -- Two points are no token.
      exfalso
      cases more with
      | nil => cases h
      | cons c more =>
          have other : c ≠ '.' := by simpa using third
          simp [Lexer.step, Text.isBlank, isQuote, Lexer.point, other, fail] at h
  · exact ⟨_, [], rest, rfl, .point second⟩

/-- A step that succeeds passes a stretch. -/
theorem exists_stretch {read : Option Token × Cursor} (h : Lexer.step here c rest = .ok read) :
    ∃ lexeme? more behind, rest = more ++ behind ∧ Stretch lexeme? (c :: more) behind := by
  -- The first character decides, in the order in which the lexer asks.
  by_cases blank : Text.isBlank c = true
  · exact ⟨none, [], rest, rfl, .blank blank⟩
  by_cases slash : c = '/'
  · subst slash
    exact exists_stretch_slash h
  by_cases quote : isQuote c = true
  · rcases spells_or_isFaulty c rest with ⟨value, body, behind, rfl, spells⟩ | faulty
    · exact ⟨_, body ++ [c], behind, by simp, .text quote spells⟩
    · rcases step_of_isFaulty quote faulty here with ⟨e, failed⟩
      rw [failed] at h
      cases h
  by_cases point : c = '.'
  · subst point
    exact exists_stretch_point h
  by_cases digit : c.isDigit = true
  · rcases exists_run continuesNumber rest with ⟨more, behind, rfl, all, ends⟩
    have numeral : isNumeral (c :: more) = true := Bool.and_eq_true_iff.2 ⟨digit, all⟩
    exact ⟨_, more, behind, rfl, .number numeral ends⟩
  by_cases word : startsWord c = true
  · rcases exists_run continuesWord rest with ⟨more, behind, rfl, all, ends⟩
    have identifier : isIdentifier (c :: more) = true := Bool.and_eq_true_iff.2 ⟨word, all⟩
    exact ⟨_, more, behind, rfl, .word identifier ends⟩
  by_cases mark : c ∈ marks
  · exact ⟨_, [], rest, rfl, .mark mark⟩
  · simp [Lexer.step, blank, slash, quote, point, digit, word, mark, fail] at h

/-- What a step passes and gives is told by the stretches. -/
theorem step_eq_ok_iff {found : Option Token} {next : Cursor} :
    Lexer.step here c rest = .ok (found, next) ↔
      ∃ lexeme? more, rest = more ++ next.text ∧ Stretch lexeme? (c :: more) next.text ∧
        found = tokenOf lexeme? here (c :: more) ∧ next.position = here.advanceAll (c :: more) := by
  constructor
  · intro read
    rcases exists_stretch read with ⟨lexeme?, more, behind, rfl, stretch⟩
    rw [stretch.step rfl here] at read
    cases read
    exact ⟨lexeme?, more, rfl, stretch, rfl, rfl⟩
  · rintro ⟨lexeme?, more, rfl, stretch, rfl, place⟩
    rw [stretch.step rfl here, ← place]

/-! ## What may change behind a stretch -/

theorem Ends.of_head? {p : Char → Bool} (h : Ends p behind)
    (same : behind'.head? = behind.head?) : Ends p behind' := by
  rw [Ends, same]
  exact h

theorem Element.of_head? {quote : Char} {decoded : Option Char} {code : List Char}
    (h : Element quote decoded code behind) (same : behind'.head? = behind.head?) :
    Element quote decoded code behind' := by
  cases h with
  | plain feed backslash other => exact .plain feed backslash other
  | short mem => exact .short mem
  | zero free => exact .zero (same ▸ free)
  | itself plain => exact .itself plain
  | twoDigits length number => exact .twoDigits length number
  | fourDigits length number => exact .fourDigits length number
  | pair astral highLength lowLength high low => exact .pair astral highLength lowLength high low
  | braces nonempty number => exact .braces nonempty number
  | continued mem => exact .continued mem
  | continuedReturn alone => exact .continuedReturn (same ▸ alone)
  | continuedBoth => exact .continuedBoth

theorem Spells.of_head? {quote : Char} {value : List Char} (h : Spells quote behind value text)
    (same : behind'.head? = behind.head?) : Spells quote behind' value text := by
  induction h with
  | nil => exact .nil
  | @cons decoded code value text element _ ih =>
      have next : (text ++ behind').head? = (text ++ behind).head? := by
        rw [List.head?_append, List.head?_append, same]
      exact .cons (element.of_head? next) ih

/-- Only the next character matters. -/
theorem Stretch.of_head? (h : Stretch lexeme? passed behind)
    (same : behind'.head? = behind.head?) : Stretch lexeme? passed behind' := by
  cases h with
  | blank blank => exact .blank blank
  | remark free ends => exact .remark free (ends.of_head? same)
  | block free plain => exact .block free plain
  | doc free => exact .doc free
  | text isQ spells => exact .text isQ (spells.of_head? rfl)
  | point other => exact .point (same ▸ other)
  | ellipsis => exact .ellipsis
  | number numeral ends => exact .number numeral (ends.of_head? same)
  | word identifier ends => exact .word identifier (ends.of_head? same)
  | mark mem => exact .mark mem

/-- A character that no token goes on with. -/
def Separates (c : Char) : Prop :=
  continuesWord c = false ∧ continuesNumber c = false ∧ c ≠ '.'

/-- A token stays the same in front of a character that separates tokens. -/
theorem Stretch.of_separates {lexeme : Lexeme} (h : Stretch (some lexeme) passed behind)
    (separates : Separates c) : Stretch (some lexeme) passed (c :: rest) := by
  rcases separates with ⟨noWord, noNumber, noPoint⟩
  have only {p : Char → Bool} (none : p c = false) : Ends p (c :: rest) := by
    rintro _ ⟨⟩
    exact none
  cases h with
  | doc free => exact .doc free
  | text isQ spells => exact .text isQ (spells.of_head? rfl)
  | point => exact .point fun same => noPoint (Option.some.inj same)
  | ellipsis => exact .ellipsis
  | number numeral => exact .number numeral (only noNumber)
  | word identifier => exact .word identifier (only noWord)
  | mark mem => exact .mark mem

/-- So does what gives no token, unless it is a remark. -/
theorem Stretch.of_none (h : Stretch none passed behind) :
    (∀ behind', Stretch none passed behind') ∨
      ∃ text, passed = '/' :: '/' :: text ∧ '\n' ∉ text ∧ Ends (· != '\n') behind := by
  cases h with
  | blank blank => exact .inl fun _ => .blank blank
  | remark free ends => exact .inr ⟨_, rfl, free, ends⟩
  | block free plain => exact .inl fun _ => .block free plain

end Lexer

end HyperSchema
