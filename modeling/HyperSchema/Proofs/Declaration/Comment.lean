import HyperSchema.Proofs.Declaration.Spelling
import HyperSchema.Proofs.Text.Parts

/-!
# Comment — what is read of a printed comment

A comment is printed line by line, behind stars, and read again without them.  This file defines:

* `Declaration.docBody`, what a printed comment has between `/**` and `*/`;
* `Declaration.reread`, the text that is read of the comment printed for a text;
* `Piece.doc`, the comment as one piece of a text.

The printed comment is read as one token whatever its text is (`Piece.reads_doc`), and the text read
is the text printed if that has the form of a comment's text (`Declaration.reread_eq_self`), which
every text read from a comment has (`Declaration.isDocText_docText`).
-/

namespace HyperSchema

/-! ## The end of a comment -/

namespace Lexer

/-- A comment ends at its first `*/`. -/
theorem commentBody_append {body : List Char} (h : Text.hasInfix ['*', '/'] body = false)
    (here : Position) (rest : List Char) :
    commentBody here (body ++ '*' :: '/' :: rest) =
      .ok (body, ⟨here.advanceAll (body ++ ['*', '/']), rest⟩) := by
  induction body generalizing here with
  | nil => rfl
  | cons c body ih =>
      rw [Text.hasInfix_pair_cons, Bool.or_eq_false_iff] at h
      have notEnd : ∀ tail, c = '*' → body ++ '*' :: '/' :: rest = '/' :: tail → False := by
        intro tail star slash
        cases body with
        | nil => simp at slash
        | cons d body =>
            obtain ⟨rfl, -⟩ := List.cons.inj slash
            simp [star] at h
      rw [List.cons_append, commentBody]
      · rw [ih h.2]
        rfl
      · exact notEnd

theorem head?_commentBody {here : Position} {text body : List Char} {next : Cursor}
    (h : commentBody here text = .ok (body, next)) (some : body ≠ []) :
    text.head? = body.head? := by
  unfold commentBody at h
  split at h
  · simp [fail] at h
  · cases h
    exact absurd rfl some
  · split at h
    · cases h
      rfl
    · cases h

/-- What stands in a comment does not contain its end. -/
theorem hasInfix_commentBody {here : Position} {text body : List Char} {next : Cursor}
    (h : commentBody here text = .ok (body, next)) : Text.hasInfix ['*', '/'] body = false := by
  fun_induction commentBody here text generalizing body with
  | case1 => simp [fail] at h
  | case2 here rest =>
      cases h
      rfl
  | case3 here c rest notEnd body' next' heq ih =>
      simp only [Except.ok.injEq, Prod.mk.injEq] at h
      obtain ⟨rfl, rfl⟩ := h
      rw [Text.hasInfix_pair_cons, ih heq, Bool.or_false, Bool.and_eq_false_iff]
      -- A star is kept only if no slash follows it.
      by_cases star : c = '*'
      · right
        cases body' with
        | nil => rfl
        | cons d body' =>
            have start := head?_commentBody heq (List.cons_ne_nil d body')
            cases rest with
            | nil => cases start
            | cons e rest =>
                have notSlash : e ≠ '/' := fun slash => notEnd rest star (by rw [slash])
                obtain rfl : e = d := by simpa using start
                simpa using notSlash
      · left
        simpa using Ne.symm star
  | case4 => simp at h

end Lexer

namespace Declaration

theorem head?_escapeCommentEnd (line : List Char) : (escapeCommentEnd line).head? = line.head? := by
  fun_cases escapeCommentEnd line <;> rfl

/-- A printed line does not end its comment. -/
theorem hasInfix_escapeCommentEnd (line : List Char) :
    Text.hasInfix ['*', '/'] (escapeCommentEnd line) = false := by
  fun_induction escapeCommentEnd line with
  | case1 rest ih => simp [Text.hasInfix_pair_cons, ih]
  | case2 c rest notEnd ih =>
      rw [Text.hasInfix_pair_cons, ih, Bool.or_false, head?_escapeCommentEnd,
        Bool.and_eq_false_iff]
      by_cases star : c = '*'
      · right
        cases rest with
        | nil => rfl
        | cons d rest =>
            have notSlash : d ≠ '/' := fun slash => notEnd rest star (by rw [slash])
            simpa using notSlash
      · left
        simpa using Ne.symm star
  | case3 => rfl

theorem escapeCommentEnd_eq_self {line : List Char} (h : Text.hasInfix ['*', '/'] line = false) :
    escapeCommentEnd line = line := by
  fun_induction escapeCommentEnd line with
  | case1 rest ih => simp [Text.hasInfix_pair_cons] at h
  | case2 c rest notEnd ih =>
      rw [Text.hasInfix, Bool.or_eq_false_iff] at h
      rw [ih h.2]
  | case3 => rfl

theorem feed_not_mem_escapeCommentEnd {line : List Char} (h : '\n' ∉ line) :
    '\n' ∉ escapeCommentEnd line := by
  fun_induction escapeCommentEnd line with
  | case1 rest ih =>
      have : '\n' ∉ rest := fun hm => h (by simp [hm])
      simp [ih this]
  | case2 c rest notEnd ih =>
      rw [List.mem_cons, not_or] at h ⊢
      exact ⟨h.1, ih h.2⟩
  | case3 => simp

/-! ## Printed lines -/

theorem blank_of_mem_indentation {level : Nat} {c : Char} (h : c ∈ indentation level) :
    Text.isBlank c = true := by
  obtain ⟨-, rfl⟩ := List.mem_replicate.1 h
  decide

theorem blank_of_mem_margin {level : Nat} {c : Char} (h : c ∈ indentation level ++ [' ']) :
    Text.isBlank c = true := by
  rcases List.mem_append.1 h with h | h
  · exact blank_of_mem_indentation h
  · rw [List.mem_singleton.1 h]
    decide

theorem feed_not_mem_indentation (level : Nat) : '\n' ∉ indentation level := by
  intro h
  obtain ⟨-, same⟩ := List.mem_replicate.1 h
  exact absurd same (by decide)

theorem hasInfix_indentation_append (level : Nat) (text : List Char) :
    Text.hasInfix ['*', '/'] (indentation level ++ text) = Text.hasInfix ['*', '/'] text := by
  unfold indentation
  induction 2 * level with
  | zero => rfl
  | succ n ih => simp [List.replicate_succ, Text.hasInfix_pair_cons, ih]

/-- What is read of a line. -/
def rereadLine (line : List Char) : List Char :=
  Text.trimEnd (escapeCommentEnd line)

/-- A printed line without its line feed. -/
def printedLine (level : Nat) (line : List Char) : List Char :=
  indentation level ++
    (if line.isEmpty then [' ', '*'] else ' ' :: '*' :: ' ' :: escapeCommentEnd line)

theorem docLineChars_eq (level : Nat) (line : List Char) :
    docLineChars level line = printedLine level line ++ ['\n'] := by
  unfold docLineChars printedLine
  split <;> simp [*]

theorem feed_not_mem_printedLine {level : Nat} {line : List Char} (h : '\n' ∉ line) :
    '\n' ∉ printedLine level line := by
  have inside := feed_not_mem_escapeCommentEnd h
  have before := feed_not_mem_indentation level
  unfold printedLine
  split <;> simp [before, inside]

theorem hasInfix_printedLine (level : Nat) (line : List Char) :
    Text.hasInfix ['*', '/'] (printedLine level line) = false := by
  have inside := hasInfix_escapeCommentEnd line
  unfold printedLine
  rw [hasInfix_indentation_append]
  split
  · rfl
  · simp [Text.hasInfix_pair_cons, inside]

/-- Behind the star, a printed line is read up to its last blanks. -/
theorem docLine_printedLine (level : Nat) (line : List Char) :
    docLine (printedLine level line) = rereadLine line := by
  have star : Text.isBlank '*' = false := by decide
  have blank : Text.isBlank ' ' = true := by decide
  have trimmed : ∀ text, Text.trim (indentation level ++ ' ' :: '*' :: text) =
      '*' :: Text.trimEnd text := by
    intro text
    have before : ∀ c ∈ indentation level ++ [' '], Text.isBlank c = true :=
      fun c => blank_of_mem_margin
    have := Text.trimStart_append before ('*' :: text)
    rw [List.append_assoc, List.singleton_append] at this
    rw [Text.trim, this, Text.trimStart, List.dropWhile_cons_of_neg (by simp [star]),
      Text.trimEnd_cons]
    split
    · rename_i none
      simp [star, none]
    · rfl
  -- Both the star and the one blank behind it are taken away again.
  unfold docLine printedLine rereadLine
  split
  · rename_i empty
    have : line = [] := List.isEmpty_iff.1 empty
    subst this
    rw [trimmed []]
    rfl
  · rw [trimmed, Text.trimEnd_cons]
    by_cases none : Text.trimEnd (escapeCommentEnd line) = []
    · simp [none, blank]
    · simp [none]

/-! ## Printed comments -/

/-- What a printed comment has between its delimiters. -/
def docBody (level : Nat) (text : String) : List Char :=
  '\n' :: ((Text.lines text.toList).flatMap (docLineChars level) ++ indentation level ++ [' '])

/-- A printed comment from its first slash to its last. -/
def docSpelling (level : Nat) (text : String) : List Char :=
  '/' :: '*' :: '*' :: (docBody level text ++ ['*', '/'])

theorem docChars_some (level : Nat) (text : String) :
    docChars level (some text) = indentation level ++ docSpelling level text ++ ['\n'] := by
  simp [docChars, docSpelling, docBody]

/-- What is read of the comment printed for a text. -/
def reread (text : String) : String :=
  String.ofList (['\n'].intercalate (trimLines ((Text.lines text.toList).map rereadLine)))

theorem feed_not_mem_of_mem_lines {text line : List Char} (h : line ∈ Text.lines text) :
    '\n' ∉ line := by
  rcases Text.exists_piece_of_mem_lines h with ⟨piece, hp, front⟩
  exact fun feed => Text.not_mem_of_mem_splitOn hp (front.subset feed)

theorem hasInfix_docBody (level : Nat) (text : String) :
    Text.hasInfix ['*', '/'] (docBody level text) = false := by
  have lines : ∀ ls : List (List Char), Text.hasInfix ['*', '/']
      (ls.flatMap (docLineChars level) ++ indentation level ++ [' ']) = false := by
    intro ls
    induction ls with
    | nil =>
        rw [List.flatMap_nil, List.nil_append, hasInfix_indentation_append]
        rfl
    | cons line ls ih =>
        rw [List.flatMap_cons, docLineChars_eq, List.append_assoc, List.append_assoc,
          List.append_assoc, List.singleton_append,
          Text.hasInfix_append_cons (by decide) (by decide), hasInfix_printedLine]
        simpa using ih
  rw [docBody, Text.hasInfix, lines]
  rfl

/-! ## Reading a printed comment -/

theorem docLine_withoutReturn (line : List Char) :
    docLine (Text.withoutReturn line) = docLine line := by
  unfold Text.withoutReturn
  split
  · rename_i last
    rcases List.getLast?_eq_some_iff.1 last with ⟨front, rfl⟩
    rw [List.dropLast_concat, docLine, docLine, Text.trim_append_blank (by decide) front]
  · rfl

theorem trimLines_cons_nil (lines : List (List Char)) : trimLines ([] :: lines) = trimLines lines :=
  rfl

theorem trimLines_append_nil (lines : List (List Char)) :
    trimLines (lines ++ [[]]) = trimLines lines := by
  have front : (lines ++ [[]]).dropWhile List.isEmpty = _ := List.dropWhile_append
  unfold trimLines
  rw [front]
  split
  · rename_i none
    rw [List.isEmpty_iff.1 none]
    rfl
  · simp

/-- The lines of a printed comment: an empty one, those of the text, and the blanks in front of its
end. -/
theorem lines_docBody (level : Nat) (text : String) :
    Text.lines (docBody level text) =
      ([] :: (Text.lines text.toList).map (printedLine level)).map Text.withoutReturn ++
        [indentation level ++ [' ']] := by
  -- Each line brings one line feed, at its end, so the splits are between the lines.
  have pieces : ∀ ls : List (List Char), (∀ line ∈ ls, '\n' ∉ line) →
      Text.splitOn '\n' (ls.flatMap (docLineChars level) ++ indentation level ++ [' ']) =
        ls.map (printedLine level) ++ [indentation level ++ [' ']] := by
    intro ls free
    induction ls with
    | nil =>
        have := feed_not_mem_indentation level
        rw [List.flatMap_nil, List.nil_append, Text.splitOn_of_free (by simp [this])]
        rfl
    | cons line ls ih =>
        have first : '\n' ∉ printedLine level line :=
          feed_not_mem_printedLine (free line List.mem_cons_self)
        have others := ih fun l hl => free l (List.mem_cons_of_mem line hl)
        rw [List.append_assoc] at others
        rw [List.flatMap_cons, docLineChars_eq, List.append_assoc, List.append_assoc,
          List.append_assoc, List.singleton_append, Text.splitOn_append_cons first, others]
        rfl
  have split : Text.splitOn '\n' (docBody level text) =
      ([] :: (Text.lines text.toList).map (printedLine level)) ++ [indentation level ++ [' ']] := by
    rw [docBody, ← List.nil_append ('\n' :: _), Text.splitOn_append_cons (by simp),
      pieces _ fun line => feed_not_mem_of_mem_lines]
    rfl
  exact Text.lines_of_splitOn split (by simp)

/-- The text read of a printed comment does not depend on where it stands. -/
theorem docText_docBody (level : Nat) (text : String) :
    docText (docBody level text) = reread text := by
  have blank : docLine (indentation level ++ [' ']) = [] := by
    rw [docLine, Text.trim_blanks fun c => blank_of_mem_margin]
    rfl
  have each : ((Text.lines text.toList).map (printedLine level)).map
      (docLine ∘ Text.withoutReturn) = (Text.lines text.toList).map rereadLine := by
    rw [List.map_map]
    refine List.map_congr_left ?_
    intro line _
    simp only [Function.comp_apply, docLine_withoutReturn, docLine_printedLine]
  have lines : (Text.lines (docBody level text)).map docLine =
      [] :: ((Text.lines text.toList).map rereadLine ++ [[]]) := by
    rw [lines_docBody, List.map_append, List.map_map, List.map_cons, each, List.map_singleton,
      blank]
    rfl
  rw [docText, lines, trimLines_cons_nil, trimLines_append_nil, reread]

end Declaration

namespace Piece

/-- The comment printed for a text. -/
def doc (level : Nat) (text : String) : Piece :=
  token (.doc (Declaration.reread text)) (Declaration.docSpelling level text)

theorem reads_doc (level : Nat) (text : String) (rest : List Char) :
    (doc level text).Reads rest := by
  refine ⟨'/', '*' :: '*' :: (Declaration.docBody level text ++ ['*', '/']), rfl, ?_⟩
  intro here
  have star : Text.hasInfix ['*', '/'] ('*' :: Declaration.docBody level text) = false := by
    rw [Text.hasInfix_pair_cons, Declaration.hasInfix_docBody]
    rfl
  have body := Lexer.commentBody_append star ((here.advance '/').advance '*') rest
  have read := Declaration.docText_docBody level text
  rw [List.cons_append] at body
  have blank : Text.isBlank '/' = false := by decide
  simp only [List.cons_append, List.append_assoc, List.nil_append] at body ⊢
  simp [Lexer.step, blank, Lexer.slash, body, Except.map, Lexer.comment, Lexer.token, read,
    Declaration.docSpelling]

end Piece

/-! ## Texts of comments -/

namespace Declaration

theorem not_hasInfix_of_mem_splitOn {text line : List Char}
    (h : Text.hasInfix ['*', '/'] text = false) (hl : line ∈ Text.splitOn '\n' text) :
    Text.hasInfix ['*', '/'] line = false := by
  have part : line <:+: ['\n'].intercalate (Text.splitOn '\n' text) := Text.infix_intercalate hl
  rw [Text.intercalate_splitOn] at part
  exact Text.hasInfix_of_infix part h

theorem trimLines_eq_self {lines : List (List Char)} (first : lines.head? ≠ some [])
    (last : lines.getLast? ≠ some []) : trimLines lines = lines := by
  have keep : ∀ {ls : List (List Char)}, ls.head? ≠ some [] → ls.dropWhile List.isEmpty = ls := by
    intro ls h
    cases ls with
    | nil => rfl
    | cons line ls =>
        have : line ≠ [] := by simpa using h
        rw [List.dropWhile_cons_of_neg (by simpa using this)]
  unfold trimLines
  rw [keep first, keep (by rwa [List.head?_reverse]), List.reverse_reverse]

theorem withoutReturn_eq_self {line : List Char} (h : Text.trimEnd line = line) :
    Text.withoutReturn line = line := by
  unfold Text.withoutReturn
  split
  · -- The return is a blank, so it would be trimmed.
    rename_i last
    rcases List.getLast?_eq_some_iff.1 last with ⟨front, rfl⟩
    have shorter := (Text.prefix_of_trimEnd front).length_le
    rw [Text.trimEnd_append_blank (by decide)] at h
    rw [h, List.length_append, List.length_singleton] at shorter
    omega
  · rfl

/-- A text of the form of a comment's text is read back from the comment printed for it. -/
theorem reread_eq_self {text : String} (h : isDocText text = true) : reread text = text := by
  rw [isDocText, Bool.or_eq_true] at h
  rcases h with h | h
  · have : text = "" := by simpa using h
    subst this
    rfl
  · simp only [Bool.and_eq_true, List.all_eq_true, beq_iff_eq, Bool.not_eq_eq_eq_not,
      Bool.not_true, bne_iff_ne] at h
    obtain ⟨⟨⟨trimmed, noEnd⟩, first⟩, last⟩ := h
    have some := Text.splitOn_ne_nil '\n' text.toList
    -- Trimmed lines have no return to lose, and the last line is not empty.
    have lines : Text.lines text.toList = Text.splitOn '\n' text.toList := by
      have parts := (List.dropLast_concat_getLast some).symm
      have keep : (Text.splitOn '\n' text.toList).dropLast.map Text.withoutReturn =
          (Text.splitOn '\n' text.toList).dropLast := by
        refine (List.map_congr_left ?_).trans (List.map_id' _)
        intro line hl
        exact withoutReturn_eq_self (trimmed line (List.dropLast_subset _ hl))
      rw [List.getLast?_eq_some_getLast some] at last
      rw [Text.lines_of_splitOn parts (by simpa using last), keep]
      exact parts.symm
    have each : (Text.splitOn '\n' text.toList).map rereadLine = Text.splitOn '\n' text.toList := by
      refine (List.map_congr_left ?_).trans (List.map_id' _)
      intro line hl
      rw [rereadLine, escapeCommentEnd_eq_self (not_hasInfix_of_mem_splitOn noEnd hl),
        trimmed line hl]
    rw [reread, lines, each, trimLines_eq_self first last, Text.intercalate_splitOn,
      String.ofList_toList]

/-! ## Texts read from comments -/

theorem infix_docLine (line : List Char) : docLine line <:+: line := by
  unfold docLine
  dsimp only
  refine (Text.prefix_of_trimEnd _).isInfix.trans (List.IsInfix.trans ?_ (Text.trim_infix line))
  generalize Text.trim line = text
  -- What is left behind a star and a blank is a suffix.
  refine List.IsSuffix.isInfix ?_
  split
  · rename_i rest starless
    refine (List.suffix_cons ' ' rest).trans ?_
    rw [← starless]
    split
    · exact List.suffix_cons _ _
    · exact List.suffix_refl _
  · split
    · exact List.suffix_cons _ _
    · exact List.suffix_refl _

theorem infix_of_mem_lines {text line : List Char} (h : line ∈ Text.lines text) :
    line <:+: text := by
  rcases Text.exists_piece_of_mem_lines h with ⟨piece, hp, front⟩
  have part : piece <:+: ['\n'].intercalate (Text.splitOn '\n' text) := Text.infix_intercalate hp
  rw [Text.intercalate_splitOn] at part
  exact front.isInfix.trans part

theorem trimLines_sublist (lines : List (List Char)) : (trimLines lines).Sublist lines := by
  have back := List.dropWhile_sublist (l := (lines.dropWhile List.isEmpty).reverse) List.isEmpty
  have kept : (trimLines lines).Sublist (lines.dropWhile List.isEmpty) := by
    simpa [trimLines] using back.reverse
  exact kept.trans (List.dropWhile_sublist _)

/-- No empty line is left at either end. -/
theorem trimLines_ends (lines : List (List Char)) :
    (trimLines lines).head? ≠ some [] ∧ (trimLines lines).getLast? ≠ some [] := by
  have first : ∀ ls : List (List Char), (ls.dropWhile List.isEmpty).head? ≠ some [] := by
    intro ls
    induction ls with
    | nil => simp
    | cons line ls ih =>
        cases line with
        | nil => simpa using ih
        | cons c line => simp
  constructor
  · -- What is cut off at the end leaves a part from the start.
    have front : trimLines lines <+: lines.dropWhile List.isEmpty := by
      have back := List.dropWhile_suffix (l := (lines.dropWhile List.isEmpty).reverse) List.isEmpty
      simpa [trimLines, ← List.reverse_prefix] using back
    rcases front with ⟨rest, whole⟩
    have head := first lines
    rw [← whole] at head
    intro empty
    rw [List.head?_append, empty] at head
    exact head rfl
  · rw [trimLines, List.getLast?_reverse]
    exact first _

theorem not_hasInfix_intercalate {lines : List (List Char)}
    (each : ∀ line ∈ lines, Text.hasInfix ['*', '/'] line = false) :
    Text.hasInfix ['*', '/'] (['\n'].intercalate lines) = false := by
  induction lines with
  | nil => rfl
  | cons line lines ih =>
      have first := each line List.mem_cons_self
      have others := ih fun l hl => each l (List.mem_cons_of_mem line hl)
      cases lines with
      | nil => rwa [List.intercalate_singleton]
      | cons second lines =>
          rw [List.intercalate_cons_cons, List.append_assoc, List.singleton_append,
            Text.hasInfix_append_cons (by decide) (by decide), first, others]
          rfl

/-- Every text that is read from a comment has the form of a comment's text. -/
theorem isDocText_docText {body : List Char} (h : Text.hasInfix ['*', '/'] body = false) :
    isDocText (docText body) = true := by
  -- Every line that is kept is a part of the body, and so inherits what the body lacks.
  have line : ∀ l ∈ trimLines ((Text.lines body).map docLine),
      '\n' ∉ l ∧ Text.trimEnd l = l ∧ Text.hasInfix ['*', '/'] l = false := by
    intro l hl
    rcases List.mem_map.1 ((trimLines_sublist _).subset hl) with ⟨source, hs, rfl⟩
    have whole : docLine source <:+: body := (infix_docLine source).trans (infix_of_mem_lines hs)
    refine ⟨?_, Text.trimEnd_trimEnd _, Text.hasInfix_of_infix whole h⟩
    intro feed
    exact feed_not_mem_of_mem_lines hs ((infix_docLine source).subset feed)
  rcases trimLines_ends ((Text.lines body).map docLine) with ⟨first, last⟩
  by_cases empty : trimLines ((Text.lines body).map docLine) = []
  · simp [isDocText, docText, empty]
  · have split := Text.splitOn_intercalate (fun l hl => (line l hl).1) empty
    rw [isDocText, docText, String.toList_ofList, Bool.or_eq_true]
    right
    simp only [split, Bool.and_eq_true, List.all_eq_true, beq_iff_eq, Bool.not_eq_true',
      bne_iff_ne]
    exact ⟨⟨⟨fun l hl => (line l hl).2.1, not_hasInfix_intercalate fun l hl => (line l hl).2.2⟩,
      first⟩, last⟩

end Declaration

end HyperSchema
