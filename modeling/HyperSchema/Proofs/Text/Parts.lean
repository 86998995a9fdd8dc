import HyperSchema.Text.Blank
import HyperSchema.Text.Infix
import HyperSchema.Text.Lines

/-!
# Parts — pieces, infixes and trimmed ends of texts

Facts about the functions that cut texts:

* `Text.splitOn` is the inverse of joining, and its pieces are free of the separator;
* `Text.hasInfix` decides `<:+:`, and a separator that is not in the pattern splits the search;
* `Text.trimEnd` step by step, and `Text.trim` of a text with a blank behind it.
-/

namespace HyperSchema.Text

/-! ## Splitting -/

theorem splitOn_eq (separator : Char) (text : List Char) :
    splitOn separator text = text.splitOn separator := by
  induction text with
  | nil => rfl
  | cons c rest ih =>
      rw [splitOn, List.splitOn_cons_eq_if_modifyHead, ih]
      by_cases h : c = separator
      · simp [h]
      · cases hs : rest.splitOn separator with
        | nil => exact absurd hs (List.splitOn_ne_nil _ _)
        | cons first others => simp [h, List.modifyHead]

theorem splitOn_ne_nil (separator : Char) (text : List Char) : splitOn separator text ≠ [] := by
  rw [splitOn_eq]
  exact List.splitOn_ne_nil _ _

theorem length_splitOn (separator : Char) (text : List Char) :
    (splitOn separator text).length = text.count separator + 1 := by
  induction text with
  | nil => rfl
  | cons c rest ih =>
      rw [splitOn]
      split
      · rename_i same
        rw [List.length_cons, ih, same, List.count_cons_self]
      · rename_i other
        rw [List.count_cons_of_ne other, ← ih]
        cases pieces : splitOn separator rest with
        | nil => exact absurd pieces (splitOn_ne_nil separator rest)
        | cons first others => rfl

theorem intercalate_splitOn (separator : Char) (text : List Char) :
    [separator].intercalate (splitOn separator text) = text := by
  rw [splitOn_eq]
  exact List.intercalate_splitOn separator

theorem splitOn_intercalate {separator : Char} {pieces : List (List Char)}
    (free : ∀ piece ∈ pieces, separator ∉ piece) (some : pieces ≠ []) :
    splitOn separator ([separator].intercalate pieces) = pieces := by
  rw [splitOn_eq]
  exact List.splitOn_intercalate separator free some

theorem splitOn_append_cons {separator : Char} {first rest : List Char} (free : separator ∉ first) :
    splitOn separator (first ++ separator :: rest) = first :: splitOn separator rest := by
  rw [splitOn_eq, splitOn_eq]
  exact List.splitOn_append_cons_self_of_not_mem free rest

theorem splitOn_of_free {separator : Char} {text : List Char} (free : separator ∉ text) :
    splitOn separator text = [text] := by
  rw [splitOn_eq]
  exact List.splitOn_eq_singleton free

/-- What stands behind the last separator is the last piece. -/
theorem splitOn_append_last {separator : Char} {last : List Char} (free : separator ∉ last)
    (text : List Char) :
    splitOn separator (text ++ separator :: last) = splitOn separator text ++ [last] := by
  induction text with
  | nil =>
      have first : splitOn separator ([] ++ separator :: last) = [] :: splitOn separator last :=
        splitOn_append_cons List.not_mem_nil
      rw [first, splitOn_of_free free]
      rfl
  | cons c rest ih =>
      rw [List.cons_append, splitOn, splitOn, ih]
      split
      · rfl
      · cases pieces : splitOn separator rest with
        | nil => exact absurd pieces (splitOn_ne_nil separator rest)
        | cons first others => rfl

/-- What stands at the end of a text and holds no separator stands at the end of the last piece. -/
theorem splitOn_append_free {separator : Char} {ending : List Char} (free : separator ∉ ending)
    (text : List Char) :
    ∃ others last, splitOn separator (text ++ ending) = others ++ [last ++ ending] := by
  induction text with
  | nil => exact ⟨[], [], splitOn_of_free free⟩
  | cons c rest ih =>
      rcases ih with ⟨others, last, pieces⟩
      rw [List.cons_append, splitOn, pieces]
      split
      · exact ⟨[] :: others, last, rfl⟩
      · cases others with
        | nil => exact ⟨[], c :: last, rfl⟩
        | cons first others => exact ⟨(c :: first) :: others, last, rfl⟩

theorem not_mem_of_mem_splitOn {separator : Char} {text piece : List Char}
    (h : piece ∈ splitOn separator text) : separator ∉ piece := by
  induction text generalizing piece with
  | nil =>
      rw [splitOn, List.mem_singleton] at h
      simp [h]
  | cons c rest ih =>
      rw [splitOn] at h
      split at h
      · rcases List.mem_cons.1 h with rfl | h
        · simp
        · exact ih h
      · rename_i other
        cases hs : splitOn separator rest with
        | nil => exact absurd hs (splitOn_ne_nil _ _)
        | cons first others =>
            rw [hs] at h ih
            rcases List.mem_cons.1 h with rfl | h
            · have := ih List.mem_cons_self
              simp [Ne.symm other, this]
            · exact ih (List.mem_cons_of_mem first h)

theorem lines_of_splitOn {text last : List Char} {others : List (List Char)}
    (h : splitOn '\n' text = others ++ [last]) (some : last ≠ []) :
    lines text = others.map withoutReturn ++ [last] := by
  simp [lines, h, some]

theorem prefix_of_withoutReturn (line : List Char) : withoutReturn line <+: line := by
  unfold withoutReturn
  split
  · exact List.dropLast_prefix line
  · exact List.prefix_refl line

/-- A line is a piece between line feeds, perhaps without its end. -/
theorem exists_piece_of_mem_lines {text line : List Char} (h : line ∈ lines text) :
    ∃ piece ∈ splitOn '\n' text, line <+: piece := by
  unfold lines at h
  rcases List.mem_append.1 h with h | h
  · rcases List.mem_map.1 h with ⟨piece, hp, rfl⟩
    exact ⟨piece, List.dropLast_subset _ hp, prefix_of_withoutReturn piece⟩
  · -- The last line has no line feed, and so keeps its end.
    split at h
    · cases h
    · have hl : line = (splitOn '\n' text).getLast (splitOn_ne_nil _ _) := by
        simpa [List.getLast?_eq_some_getLast (splitOn_ne_nil _ _)] using h
      exact ⟨line, hl ▸ List.getLast_mem _, List.prefix_refl line⟩

/-! ## Infixes -/

theorem hasInfix_iff {pattern text : List Char} :
    hasInfix pattern text = true ↔ pattern <:+: text := by
  induction text with
  | nil => simp [hasInfix]
  | cons c rest ih => rw [hasInfix, Bool.or_eq_true, ih, List.isPrefixOf_iff_prefix,
      List.infix_cons_iff]

theorem hasInfix_of_infix {pattern part text : List Char} (h : part <:+: text)
    (none : hasInfix pattern text = false) : hasInfix pattern part = false := by
  cases found : hasInfix pattern part with
  | false => rfl
  | true =>
      have := hasInfix_iff.2 ((hasInfix_iff.1 found).trans h)
      rw [none] at this
      cases this

theorem infix_intercalate {separator piece : List Char} {pieces : List (List Char)}
    (h : piece ∈ pieces) : piece <:+: separator.intercalate pieces := by
  induction pieces with
  | nil => cases h
  | cons first others ih =>
      cases others with
      | nil =>
          rw [List.intercalate_singleton]
          exact List.mem_singleton.1 h ▸ List.infix_refl first
      | cons second others =>
          rw [List.intercalate_cons_cons]
          rcases List.mem_cons.1 h with rfl | h
          · exact ⟨[], separator ++ separator.intercalate (second :: others), by simp⟩
          · exact (ih h).trans (List.suffix_append _ _).isInfix

theorem suffix_intercalate {separator : List Char} {ending : List (List Char)} (some : ending ≠ [])
    (pieces : List (List Char)) :
    separator.intercalate ending <:+ separator.intercalate (pieces ++ ending) := by
  induction pieces with
  | nil => exact List.suffix_refl _
  | cons first others ih =>
      rw [List.cons_append]
      cases rest : others ++ ending with
      | nil => exact absurd (List.append_eq_nil_iff.1 rest).2 some
      | cons second rest' =>
          rw [List.intercalate_cons_cons]
          exact (rest ▸ ih).trans (List.suffix_append _ _)

theorem hasInfix_pair_cons (x y c : Char) (rest : List Char) :
    hasInfix [x, y] (c :: rest) = (x == c && rest.head? == some y || hasInfix [x, y] rest) := by
  cases rest with
  | nil => simp [hasInfix, List.isPrefixOf]
  | cons d rest => simp [hasInfix, List.isPrefixOf, BEq.comm (a := y)]

/-- A character outside a pattern of two separates the places where the pattern can stand. -/
theorem hasInfix_append_cons {x y c : Char} (hx : c ≠ x) (hy : c ≠ y) (a b : List Char) :
    hasInfix [x, y] (a ++ c :: b) = (hasInfix [x, y] a || hasInfix [x, y] b) := by
  have hx' : (x == c) = false := by simpa using Ne.symm hx
  induction a with
  | nil => simp [hasInfix_pair_cons, hx', hasInfix]
  | cons d a ih =>
      -- The pattern starts at `d` with both of its characters before `c`, or it stands behind `d`.
      have next : ((a ++ c :: b).head? == some y) = (a.head? == some y) := by
        cases a <;> simp [hy]
      rw [List.cons_append, hasInfix_pair_cons, hasInfix_pair_cons, ih, next, Bool.or_assoc]

/-! ## Trimming -/

theorem trimEnd_cons (c : Char) (rest : List Char) :
    trimEnd (c :: rest) =
      if trimEnd rest = [] then (if isBlank c then [] else [c]) else c :: trimEnd rest := by
  simp only [trimEnd, List.reverse_cons, List.dropWhile_append, List.isEmpty_iff,
    List.reverse_eq_nil_iff]
  split
  · by_cases h : isBlank c <;> simp [List.dropWhile, h]
  · simp

@[simp] theorem trimEnd_nil : trimEnd [] = [] := rfl

@[simp] theorem trimEnd_trimEnd (text : List Char) : trimEnd (trimEnd text) = trimEnd text := by
  induction text with
  | nil => rfl
  | cons c rest ih =>
      rw [trimEnd_cons]
      split
      · by_cases h : isBlank c <;> simp [trimEnd_cons, h]
      · rename_i some
        rw [trimEnd_cons, ih, if_neg some]

theorem trimEnd_append_blank {c : Char} (h : isBlank c = true) (text : List Char) :
    trimEnd (text ++ [c]) = trimEnd text := by
  simp [trimEnd, h]

theorem prefix_of_trimEnd (text : List Char) : trimEnd text <+: text := by
  have := (List.dropWhile_suffix isBlank (l := text.reverse))
  rw [← List.reverse_prefix, List.reverse_reverse] at this
  exact this

theorem trimStart_append {blanks : List Char} (h : ∀ c ∈ blanks, isBlank c = true)
    (text : List Char) : trimStart (blanks ++ text) = trimStart text := by
  induction blanks with
  | nil => rfl
  | cons c blanks ih =>
      have hc := h c List.mem_cons_self
      have tail := ih fun d hd => h d (List.mem_cons_of_mem c hd)
      rw [List.cons_append, trimStart, List.dropWhile_cons_of_pos hc]
      exact tail

theorem trim_append_blank {c : Char} (h : isBlank c = true) (text : List Char) :
    trim (text ++ [c]) = trim text := by
  induction text with
  | nil => simp [trim, trimStart, h]
  | cons d rest ih =>
      by_cases hd : isBlank d = true
      · simp only [trim, trimStart, List.cons_append, List.dropWhile_cons_of_pos hd] at ih ⊢
        exact ih
      · simp only [trim, trimStart, List.cons_append, List.dropWhile_cons_of_neg hd]
        exact trimEnd_append_blank h (d :: rest)

theorem trim_blanks {text : List Char} (h : ∀ c ∈ text, isBlank c = true) : trim text = [] := by
  have : trimStart text = [] := by simpa [trimStart] using trimStart_append h []
  rw [trim, this, trimEnd_nil]

theorem trim_infix (text : List Char) : trim text <:+: text :=
  (prefix_of_trimEnd _).isInfix.trans (List.dropWhile_suffix isBlank).isInfix

end HyperSchema.Text
