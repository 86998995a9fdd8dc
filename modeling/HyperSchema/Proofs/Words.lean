import HyperSchema.Proofs.Endpoint.MethodNames

/-!
# Words — the cases of an identifier agree with each other

In a word there is no separator and no capital of ASCII.  So the hyphens of kebab case are all that
can split it, and its words are those of the identifier.  This file shows:

* `Naming.words_append_separator`: a separator splits the words in front of it from those behind it;
* `Naming.isWord_of_mem_words`: what splitting can give;
* `Naming.words_kebabCase`: an identifier and its kebab case have the same words;
* `Naming.cases_agree`: so every case of the kebab case is that of the identifier, and Pascal case
  is camel case with a capital, in names of methods too.
-/

namespace HyperSchema

/-! ## Letters -/

namespace Text

theorem isUpper_lowerAscii (c : Char) : (lowerAscii c).isUpper = false := by
  have code := toNat_lowerAscii c
  rw [Bool.eq_false_iff, Ne, isUpper_iff]
  -- The small letters of ASCII are no capitals, and only capitals become small letters.
  split at code <;> omega

end Text

namespace Naming

theorem isSeparator_lowerAscii {c : Char} (letter : isSeparator c = false) :
    isSeparator (Text.lowerAscii c) = false := by
  have code := Text.toNat_lowerAscii c
  split at code
  · -- A capital becomes a small letter, and no separator is one.
    have apart {d : Char} (small : d.toNat < 97) : (Text.lowerAscii c == d) = false := by
      refine beq_eq_false_iff_ne.2 fun same => ?_
      rw [same] at code
      omega
    simp [isSeparator, apart]
  · rwa [Char.toNat_inj.1 code]

/-! ## Splitting at separators -/

theorem consWord_append (word : List Char) (words others : List (List Char)) :
    consWord word words ++ others = consWord word (words ++ others) := by
  unfold consWord
  split <;> rfl

theorem words_eq (text : List Char) :
    words text = consWord (segments false text).1 (segments false text).2 := rfl

variable {c : Char} {text word : List Char}

theorem segments_append_separator (separator : isSeparator c = true) (afterLower : Bool)
    (text rest : List Char) :
    segments afterLower (text ++ c :: rest) =
      ((segments afterLower text).1, (segments afterLower text).2 ++ words rest) := by
  induction text generalizing afterLower with
  | nil => exact segments_separator rest separator
  | cons d text ih =>
      rw [List.cons_append]
      cases separates : isSeparator d with
      | true =>
          have split : words (text ++ c :: rest) = words text ++ words rest := by
            rw [words_eq, ih, words_eq text, consWord_append]
          rw [segments_separator _ separates, segments_separator _ separates, split]
      | false =>
          cases starts : d.isUpper && afterLower with
          | true =>
              rw [segments_capital _ separates starts, segments_capital _ separates starts, ih]
              rfl
          | false =>
              rw [segments_letter _ separates starts, segments_letter _ separates starts, ih]

/-- A separator splits the words in front of it from those behind it. -/
theorem words_append_separator (separator : isSeparator c = true) (text rest : List Char) :
    words (text ++ c :: rest) = words text ++ words rest := by
  rw [words_eq, segments_append_separator separator, words_eq text, consWord_append]

/-! ## Words -/

/-- What splitting can give: some characters, none of which could split them again. -/
structure IsWord (word : List Char) : Prop where
  nonempty : word ≠ []
  letter : ∀ c ∈ word, isSeparator c = false
  small : ∀ c ∈ word, c.isUpper = false

theorem isWord_of_mem_words (h : word ∈ words text) : IsWord word where
  nonempty := ne_nil_of_mem_words h
  letter c mem := by
    rcases exists_of_mem_words h mem with ⟨d, -, letter, rfl⟩
    exact isSeparator_lowerAscii letter
  small c mem := by
    rcases exists_of_mem_words h mem with ⟨d, -, -, rfl⟩
    exact Text.isUpper_lowerAscii d

theorem lowerAscii_of_isUpper_eq_false (small : c.isUpper = false) : Text.lowerAscii c = c := by
  refine Char.toNat_inj.1 ?_
  rw [Text.toNat_lowerAscii, if_neg]
  rwa [← Text.isUpper_iff, Bool.not_eq_true]

theorem segments_of_small (letter : ∀ c ∈ word, isSeparator c = false)
    (small : ∀ c ∈ word, c.isUpper = false) (afterLower : Bool) :
    segments afterLower word = (word, []) := by
  induction word generalizing afterLower with
  | nil => rfl
  | cons c rest ih =>
      rw [List.forall_mem_cons] at letter small
      have continues : (c.isUpper && afterLower) = false := by rw [small.1, Bool.false_and]
      rw [segments_letter rest letter.1 continues, ih letter.2 small.2,
        lowerAscii_of_isUpper_eq_false small.1]

/-- A word is not split. -/
theorem IsWord.words (h : IsWord word) : words word = [word] := by
  have whole := segments_of_small h.letter h.small false
  have some : word.isEmpty = false := List.isEmpty_eq_false_iff.2 h.nonempty
  rw [words_eq, whole]
  simp [consWord, some]

/-- Words that are joined by hyphens are split at the hyphens again. -/
theorem words_intercalate {list : List (List Char)} (each : ∀ word ∈ list, IsWord word) :
    words (['-'].intercalate list) = list := by
  induction list with
  | nil => rfl
  | cons first others ih =>
      rw [List.forall_mem_cons] at each
      cases others with
      | nil => rw [List.intercalate_singleton, each.1.words]
      | cons second others =>
          calc words (['-'].intercalate (first :: second :: others))
              = words (first ++ '-' :: ['-'].intercalate (second :: others)) := by
                rw [List.intercalate_cons_cons, List.append_assoc, List.singleton_append]
            _ = words first ++ words (['-'].intercalate (second :: others)) :=
                words_append_separator rfl _ _
            _ = first :: second :: others := by
                rw [each.1.words, ih each.2, List.singleton_append]

/-! ## Cases -/

/-- An identifier and its kebab case have the same words. -/
theorem words_kebabCase (text : String) :
    words (kebabCase text).toList = words text.toList := by
  rw [kebabCase, String.toList_ofList]
  exact words_intercalate fun _ => isWord_of_mem_words

/-- The cases of an identifier only depend on its words, which are words of the kebab case too and
hold all letters.  Pascal case is camel case with a capital, and so is the name of a raw method. -/
theorem cases_agree (text rel : String) :
    (words (kebabCase text).toList = words text.toList ∧
      (words text.toList).flatten = letters text.toList) ∧
    (kebabCase (kebabCase text) = kebabCase text ∧ camelCase (kebabCase text) = camelCase text ∧
      pascalCase (kebabCase text) = pascalCase text) ∧
    pascalCase text = capitalizeFirst (camelCase text) ∧
    Endpoint.rawMethodName rel = "raw" ++ capitalizeFirst (Endpoint.methodName rel) := by
  have same := words_kebabCase text
  have kebab : kebabCase (kebabCase text) = kebabCase text := by
    rw [kebabCase, same, kebabCase]
  have camel : camelCase (kebabCase text) = camelCase text := by
    rw [camelCase, same, camelCase]
  have pascal : pascalCase (kebabCase text) = pascalCase text := by
    rw [pascalCase, same, pascalCase]
  exact ⟨⟨same, flatten_words text.toList⟩, ⟨kebab, camel, pascal⟩, pascalCase_eq text,
    Endpoint.rawMethodName_eq rel⟩

end Naming

end HyperSchema
