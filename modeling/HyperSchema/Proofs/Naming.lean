import HyperSchema.Naming

/-!
# Naming — what the words of an identifier look like

No word is empty, and none has a capital of ASCII in it.  So a name in camel case and the one in
Pascal case differ in their first character only, and within ASCII each tells the other.  This file
shows:

* `Text.upperAscii_inj`: what is no capital is known by its capital;
* `Naming.ne_nil_of_mem_words`, by the recursion of `segments`;
* `Naming.flatten_words`: the words hold the letters of the text, in lower case;
* `Naming.pascalCase_eq`: Pascal case is camel case with its first character in upper case;
* `Naming.camelCase_inj_of_ascii`: within ASCII, no two names in camel case have one Pascal case.
-/

namespace HyperSchema

/-! ## Letters of ASCII -/

namespace Text

theorem isUpper_iff {c : Char} : c.isUpper = true ↔ 65 ≤ c.toNat ∧ c.toNat ≤ 90 := by
  show decide (c.val ≥ 'A'.val ∧ c.val ≤ 'Z'.val) = true ↔ _
  simp [UInt32.le_iff_toNat_le]

theorem toNat_upperAscii (c : Char) :
    (upperAscii c).toNat = if 97 ≤ c.toNat ∧ c.toNat ≤ 122 then c.toNat - 32 else c.toNat := by
  have small_iff : 'a'.val ≤ c.val ∧ c.val ≤ 'z'.val ↔ 97 ≤ c.toNat ∧ c.toNat ≤ 122 := by
    simp [UInt32.le_iff_toNat_le]
  unfold upperAscii Char.toUpper
  split
  · rename_i small
    have code : c.val.toNat = c.toNat := rfl
    have shift : ('A'.val - 'a'.val).toNat = 2 ^ 32 - 32 := rfl
    show (c.val + ('A'.val - 'a'.val)).toNat = _
    rw [if_pos (small_iff.1 small), UInt32.toNat_add, shift, code]
    have := small_iff.1 small
    omega
  · rename_i other
    rw [if_neg fun small => other (small_iff.2 small)]

theorem toNat_lowerAscii (c : Char) :
    (lowerAscii c).toNat = if 65 ≤ c.toNat ∧ c.toNat ≤ 90 then c.toNat + 32 else c.toNat := by
  have capital_iff : c.val ≥ 'A'.val ∧ c.val ≤ 'Z'.val ↔ 65 ≤ c.toNat ∧ c.toNat ≤ 90 := by
    simp [UInt32.le_iff_toNat_le]
  unfold lowerAscii Char.toLower
  split
  · rename_i capital
    have code : c.val.toNat = c.toNat := rfl
    have shift : ('a'.val - 'A'.val).toNat = 32 := rfl
    show (c.val + ('a'.val - 'A'.val)).toNat = _
    rw [if_pos (capital_iff.1 capital), UInt32.toNat_add, shift, code]
    have := capital_iff.1 capital
    omega
  · rename_i other
    rw [if_neg fun capital => other (capital_iff.2 capital)]

/-- What is no capital is known by its capital. -/
theorem upperAscii_inj {a b : Char} (plainA : a.isUpper = false) (plainB : b.isUpper = false)
    (h : upperAscii a = upperAscii b) : a = b := by
  have codes := congrArg Char.toNat h
  rw [toNat_upperAscii, toNat_upperAscii] at codes
  rw [Bool.eq_false_iff, Ne, isUpper_iff] at plainA plainB
  refine Char.toNat_inj.1 ?_
  grind

/-- A character of ASCII that is no capital. -/
def isPlain (c : Char) : Bool :=
  c.toNat < 128 && !c.isUpper

theorem isPlain_lowerAscii {c : Char} (ascii : c.toNat < 128) : isPlain (lowerAscii c) = true := by
  have code := toNat_lowerAscii c
  have small : (lowerAscii c).isUpper = false := by
    rw [Bool.eq_false_iff, Ne, isUpper_iff]
    grind
  have low : (lowerAscii c).toNat < 128 := by grind
  simp [isPlain, small, low]

/-- A text that starts with no capital is known by its capitalized form, within ASCII. -/
theorem capitalize_inj {a b : List Char} (plainA : ∀ c ∈ a.head?, isPlain c = true)
    (plainB : ∀ c ∈ b.head?, isPlain c = true) (h : capitalize a = capitalize b) : a = b := by
  have single : ∀ {c : Char}, isPlain c = true →
      c.isUpper = false ∧ ∀ rest, capitalize (c :: rest) = upperAscii c :: rest := by
    intro c plain
    simp only [isPlain, Bool.and_eq_true, Bool.not_eq_true', decide_eq_true_eq] at plain
    refine ⟨plain.2, fun rest => ?_⟩
    rw [capitalize, upper, if_pos plain.1, List.singleton_append]
  cases a with
  | nil =>
      cases b with
      | nil => rfl
      | cons d others =>
          rw [(single (plainB d rfl)).2] at h
          cases h
  | cons c rest =>
      rw [(single (plainA c rfl)).2] at h
      cases b with
      | nil => cases h
      | cons d others =>
          rw [(single (plainB d rfl)).2] at h
          rcases List.cons.inj h with ⟨first, same⟩
          rw [upperAscii_inj (single (plainA c rfl)).1 (single (plainB d rfl)).1 first, same]

end Text

namespace Naming

/-! ## Words -/

section Segments

variable {c : Char} {afterLower : Bool} (rest : List Char)

theorem segments_separator (separator : isSeparator c = true) :
    segments afterLower (c :: rest) = ([], words rest) := by
  rw [segments, if_pos separator, words]

theorem segments_capital (letter : isSeparator c = false)
    (starts : (c.isUpper && afterLower) = true) :
    segments afterLower (c :: rest) =
      ([], (Text.lowerAscii c :: (segments (endsLower c) rest).1) ::
        (segments (endsLower c) rest).2) := by
  simp only [segments, letter, starts, if_true, Bool.false_eq_true, if_false]

theorem segments_letter (letter : isSeparator c = false)
    (continues : (c.isUpper && afterLower) = false) :
    segments afterLower (c :: rest) =
      (Text.lowerAscii c :: (segments (endsLower c) rest).1, (segments (endsLower c) rest).2) := by
  simp only [segments, letter, continues, Bool.false_eq_true, if_false]

end Segments

theorem mem_consWord {word first : List Char} {words : List (List Char)}
    (h : word ∈ consWord first words) : word = first ∧ word ≠ [] ∨ word ∈ words := by
  unfold consWord at h
  split at h
  · exact .inr h
  · rename_i nonempty
    rcases List.mem_cons.1 h with rfl | h
    · exact .inl ⟨rfl, fun empty => nonempty (empty ▸ rfl)⟩
    · exact .inr h

/-- The words behind the one that a text continues are not empty. -/
theorem ne_nil_of_mem_segments {afterLower : Bool} {text word : List Char}
    (h : word ∈ (segments afterLower text).2) : word ≠ [] := by
  induction text generalizing afterLower with
  | nil => cases h
  | cons c rest ih =>
      cases separator : isSeparator c with
      | true =>
          rw [segments_separator rest separator] at h
          rcases mem_consWord h with ⟨-, nonempty⟩ | h
          · exact nonempty
          · exact ih h
      | false =>
          cases starts : c.isUpper && afterLower with
          | true =>
              rw [segments_capital rest separator starts] at h
              rcases List.mem_cons.1 h with rfl | h
              · exact List.cons_ne_nil _ _
              · exact ih h
          | false =>
              rw [segments_letter rest separator starts] at h
              exact ih h

theorem flatten_consWord (word : List Char) (words : List (List Char)) :
    (consWord word words).flatten = word ++ words.flatten := by
  unfold consWord
  split
  · rename_i empty
    rw [List.isEmpty_iff.1 empty, List.nil_append]
  · rfl

/-- The letters of a text, in lower case: all characters that do not separate words. -/
def letters (text : List Char) : List Char :=
  (text.filter fun c => !isSeparator c).map Text.lowerAscii

theorem letters_separator {c : Char} (separator : isSeparator c = true) (rest : List Char) :
    letters (c :: rest) = letters rest := by
  simp [letters, separator]

theorem letters_letter {c : Char} (letter : isSeparator c = false) (rest : List Char) :
    letters (c :: rest) = Text.lowerAscii c :: letters rest := by
  simp [letters, letter]

/-- Splitting loses no letter and keeps their order. -/
theorem flatten_segments (afterLower : Bool) (text : List Char) :
    (segments afterLower text).1 ++ (segments afterLower text).2.flatten = letters text := by
  induction text generalizing afterLower with
  | nil => rfl
  | cons c rest ih =>
      cases separator : isSeparator c with
      | true =>
          calc (segments afterLower (c :: rest)).1 ++ (segments afterLower (c :: rest)).2.flatten
              = (words rest).flatten := by rw [segments_separator rest separator, List.nil_append]
            _ = letters rest := (flatten_consWord _ _).trans (ih false)
            _ = letters (c :: rest) := (letters_separator separator rest).symm
      | false =>
          rw [letters_letter separator, ← ih (endsLower c)]
          -- A capital opens a word, every other letter goes on with one.
          cases starts : c.isUpper && afterLower with
          | true =>
              rw [segments_capital rest separator starts, List.flatten_cons, List.nil_append,
                List.cons_append]
          | false => rw [segments_letter rest separator starts, List.cons_append]

/-- The words of a text hold its letters. -/
theorem flatten_words (text : List Char) : (words text).flatten = letters text :=
  (flatten_consWord _ _).trans (flatten_segments false text)

theorem ne_nil_of_mem_words {text word : List Char} (h : word ∈ words text) : word ≠ [] := by
  rcases mem_consWord h with ⟨-, nonempty⟩ | h
  · exact nonempty
  · exact ne_nil_of_mem_segments h

/-- The characters of words are letters of the text, in lower case. -/
theorem exists_of_mem_words {text word : List Char} (h : word ∈ words text) {c : Char}
    (mem : c ∈ word) : ∃ d ∈ text, isSeparator d = false ∧ Text.lowerAscii d = c := by
  have inside : c ∈ letters text :=
    flatten_words text ▸ List.mem_flatten_of_mem h mem
  rcases List.mem_map.1 inside with ⟨d, kept, lowered⟩
  rcases List.mem_filter.1 kept with ⟨inText, letter⟩
  exact ⟨d, inText, by simpa using letter, lowered⟩

/-! ## Cases -/

theorem pascalCase_eq (text : String) : pascalCase text = capitalizeFirst (camelCase text) := by
  unfold pascalCase camelCase capitalizeFirst
  cases found : words text.toList with
  | nil => rfl
  | cons first rest =>
      have nonempty : first ≠ [] := ne_nil_of_mem_words (found ▸ List.mem_cons_self)
      rcases List.exists_cons_of_ne_nil nonempty with ⟨c, others, rfl⟩
      simp [Text.capitalize]

/-- Within ASCII a name in camel case starts with no capital. -/
theorem isPlain_of_head_camelCase {text : String} (ascii : ∀ c ∈ text.toList, c.toNat < 128) :
    ∀ c ∈ (camelCase text).toList.head?, Text.isPlain c = true := by
  intro c h
  unfold camelCase at h
  cases found : words text.toList with
  | nil =>
      rw [found] at h
      cases h
  | cons first rest =>
      have inside : first ∈ words text.toList := found ▸ List.mem_cons_self
      rcases List.exists_cons_of_ne_nil (ne_nil_of_mem_words inside) with ⟨own, others, rfl⟩
      rw [found] at h
      have same : own = c := by simpa using h
      subst same
      rcases exists_of_mem_words inside List.mem_cons_self with ⟨d, mem, -, lowered⟩
      exact lowered ▸ Text.isPlain_lowerAscii (ascii d mem)

theorem camelCase_inj_of_ascii {text other : String} (ascii : ∀ c ∈ text.toList, c.toNat < 128)
    (asciiOther : ∀ c ∈ other.toList, c.toNat < 128)
    (h : capitalizeFirst (camelCase text) = capitalizeFirst (camelCase other)) :
    camelCase text = camelCase other := by
  have capitals : Text.capitalize (camelCase text).toList =
      Text.capitalize (camelCase other).toList := String.ofList_injective h
  exact String.toList_inj.1 (Text.capitalize_inj (isPlain_of_head_camelCase ascii)
    (isPlain_of_head_camelCase asciiOther) capitals)

end Naming

end HyperSchema
