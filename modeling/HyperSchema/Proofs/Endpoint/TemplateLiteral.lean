import HyperSchema.Declaration.Lexer
import HyperSchema.Proofs.Endpoint.Placeholders
import HyperSchema.Text.Hex

/-!
# Template literals — what the inside of a literal means

An address is written as the inside of a template literal.  Here the inside is read by the rules of
the language that it is written in, and compared with the text that was to be written.  This file
defines:

* `TemplateLiteral.units`, a text as the code units that strings of that language are made of;
* `TemplateLiteral.read`, the inside of a literal as units and substitutions, or nothing where the
  literal ends early or is malformed;
* `TemplateLiteral.Plain`, the texts in which nothing but backticks is special;
* `TemplateLiteral.read_fixed_iff` and `TemplateLiteral.read_value_iff`: escaped text means itself
  exactly if it is plain, and a substitution its variable exactly if that is named as variables are.
-/

namespace HyperSchema.TemplateLiteral

open Address (backtick escapeFixed)

/-! ## Code units -/

/-- The units of a code point, a surrogate pair outside the basic plane. -/
def unitsOfCode (code : Nat) : List Nat :=
  if code < 0x10000 then [code]
  else [0xD800 + (code - 0x10000) / 0x400, 0xDC00 + (code - 0x10000) % 0x400]

/-- A text in code units. -/
def units (text : List Char) : List Nat :=
  text.flatMap fun c => unitsOfCode c.toNat

theorem units_cons (c : Char) (text : List Char) :
    units (c :: text) = unitsOfCode c.toNat ++ units text := rfl

theorem length_unitsOfCode_le (code : Nat) : (unitsOfCode code).length ≤ 2 := by
  unfold unitsOfCode
  split
  · exact Nat.le_succ 1
  · exact Nat.le_refl 2

theorem one_le_length_unitsOfCode (code : Nat) : 1 ≤ (unitsOfCode code).length := by
  unfold unitsOfCode
  split
  · exact Nat.le_refl 1
  · exact Nat.le_succ 1

/-! ## Reading -/

/-- What the inside of a literal is made of. -/
inductive Item where
  | unit (code : Nat)
  /-- The value of the variable with a name. -/
  | value (name : List Char)
deriving DecidableEq, Repr

/-- The name of a substituted variable. -/
def Item.name? : Item → Option (List Char)
  | unit _ => none
  | value name => some name

/-- The string that items make, where the variables have a value. -/
def evaluate (value : List Nat) (items : List Item) : List Nat :=
  items.flatMap fun
    | .unit code => [code]
    | .value _ => value

theorem evaluate_unit (value : List Nat) (code : Nat) (items : List Item) :
    evaluate value (.unit code :: items) = code :: evaluate value items := rfl

theorem evaluate_value (value : List Nat) (name : List Char) (items : List Item) :
    evaluate value (.value name :: items) = value ++ evaluate value items := rfl

/-- Items are told by their substitutions and by the strings that they make. -/
theorem items_unique {items others : List Item}
    (names : items.filterMap Item.name? = others.filterMap Item.name?)
    (strings : ∀ value, evaluate value items = evaluate value others) : items = others := by
  induction items generalizing others with
  | nil =>
      cases others with
      | nil => rfl
      | cons other others =>
          cases other with
          | unit code => cases strings []
          | value name => cases names
  | cons item items ih =>
      cases others with
      | nil =>
          cases item with
          | unit code => cases strings []
          | value name => cases names
      | cons other others =>
          -- A unit is no substitution: it stays the same under every value.
          cases item with
          | unit code =>
              cases other with
              | unit code' =>
                  simp only [evaluate_unit, List.cons.injEq, forall_and] at strings
                  have same : items = others := ih names strings.2
                  rw [strings.1 [], same]
              | value name =>
                  simp only [evaluate_unit, evaluate_value] at strings
                  have zero := (List.cons.inj (strings [0])).1
                  have one := (List.cons.inj (strings [1])).1
                  exact absurd (zero.symm.trans one) Nat.zero_ne_one
          | value name =>
              cases other with
              | unit code =>
                  simp only [evaluate_unit, evaluate_value] at strings
                  have zero := (List.cons.inj (strings [0])).1
                  have one := (List.cons.inj (strings [1])).1
                  exact absurd (zero.trans one.symm) Nat.zero_ne_one
              | value name' =>
                  simp only [evaluate_value, List.append_cancel_left_eq] at strings
                  rcases List.cons.inj names with ⟨same, names⟩
                  rw [same, ih names strings]

/-- The number that hexadecimal digits write. -/
def hexNumber? (digits : List Char) : Option Nat :=
  if digits = [] then none
  else digits.foldlM (fun number c => (Text.hexValue? c).map (number * 16 + ·)) 0

/-- Everything up to a closing brace, and the text behind it. -/
def upToBrace? (text : List Char) : Option (List Char × List Char) :=
  match text.dropWhile (· != '}') with
  | _ :: after => some (text.takeWhile (· != '}'), after)
  | [] => none

/-- The units behind `\u`, and the text behind them. -/
def unicodeEscape? : List Char → Option (List Nat × List Char)
  | '{' :: rest => do
      let (digits, after) ← upToBrace? rest
      let code ← hexNumber? digits
      if code ≤ 0x10FFFF then some (unitsOfCode code, after) else none
  | a :: b :: c :: d :: after => (hexNumber? [a, b, c, d]).map fun code => ([code], after)
  | _ => none

/-- The unit behind `\x`, and the text behind it. -/
def hexEscape? : List Char → Option (List Nat × List Char)
  | a :: b :: after => (hexNumber? [a, b]).map fun code => ([code], after)
  | _ => none

/-- The text behind a carriage return and the line feed that may follow it. -/
def behindReturn : List Char → List Char
  | '\n' :: rest => rest
  | text => text

/-- What stands behind a backslash: its units, none where a line is continued, and the text behind
them. -/
def escape? : List Char → Option (List Nat × List Char)
  | [] => none
  | c :: rest =>
      match Lexer.shortEscape? c with
      | some decoded => some ([decoded.toNat], rest)
      | none =>
          if c = '0' ∧ Lexer.startsWithDigit rest = false then some ([0], rest)
          else if c.isDigit then none
          else if c = 'x' then hexEscape? rest
          else if c = 'u' then unicodeEscape? rest
          else if c = '\r' then some ([], behindReturn rest)
          else if Lexer.isLineEnd c then some ([], rest)
          else some (unitsOfCode c.toNat, rest)

/-- The characters of a name.  Outside ASCII every character counts as a letter, also a blank or the
end of a line. -/
def isNameChar (c : Char) : Bool :=
  c.isAlphanum || c == '_' || c == '$' || 128 ≤ c.toNat

/-- The names that a variable can have. -/
def isName (text : List Char) : Bool :=
  !text.isEmpty && !Lexer.startsWithDigit text && text.all isNameChar

/-- The substitution behind its opening signs, and the text behind it. -/
def substitution? (text : List Char) : Option (List Item × List Char) := do
  let (name, after) ← upToBrace? text
  if isName name then some ([.value name], after) else none

/-- What stands first in a text, and the text behind it.  A backtick ends the literal; a carriage
return counts as the end of a line, which is one line feed. -/
def first? (c : Char) (rest : List Char) : Option (List Item × List Char) :=
  if c = backtick then none
  else if c = '\\' then (escape? rest).map fun (codes, after) => (codes.map .unit, after)
  else if c = '\r' then some ([.unit 10], behindReturn rest)
  else if c = '$' ∧ rest.head? = some '{' then substitution? rest.tail
  else some ((unitsOfCode c.toNat).map .unit, rest)

variable {text after name : List Char} {codes : List Nat} {items : List Item}

theorem upToBrace?_eq_some_iff :
    upToBrace? text = some (name, after) ↔ text = name ++ '}' :: after ∧ '}' ∉ name := by
  constructor
  · intro h
    unfold upToBrace? at h
    split at h
    · rename_i c behind closed
      cases h
      obtain rfl : c = '}' := by
        have stops := List.head?_dropWhile_not (· != '}') text
        rw [closed] at stops
        simpa using stops
      refine ⟨?_, fun mem => by simpa using List.all_eq_true.1 List.all_takeWhile _ mem⟩
      rw [← closed, List.takeWhile_append_dropWhile]
    · cases h
  · rintro ⟨rfl, free⟩
    rw [upToBrace?, Address.dropWhile_free free, Address.takeWhile_free free]

theorem not_mem_of_isName (h : isName name = true) : '}' ∉ name := by
  intro mem
  rw [isName, Bool.and_eq_true] at h
  exact absurd (List.all_eq_true.1 h.2 _ mem) (by decide)

theorem substitution?_eq_some_iff :
    substitution? text = some (items, after) ↔
      ∃ name, items = [.value name] ∧ isName name = true ∧ text = name ++ '}' :: after := by
  constructor
  · intro h
    rcases Option.bind_eq_some_iff.1 h with ⟨⟨name, behind⟩, found, h⟩
    dsimp only at h
    split at h
    · rename_i named
      cases h
      exact ⟨name, rfl, named, (upToBrace?_eq_some_iff.1 found).1⟩
    · cases h
  · rintro ⟨name, rfl, named, rfl⟩
    exact Option.bind_eq_some_iff.2 ⟨(name, after),
      upToBrace?_eq_some_iff.2 ⟨rfl, not_mem_of_isName named⟩, if_pos named⟩

theorem suffix_of_upToBrace? (h : upToBrace? text = some (name, after)) : after <:+ text := by
  rw [(upToBrace?_eq_some_iff.1 h).1]
  exact (List.suffix_cons _ _).trans (List.suffix_append _ _)

theorem suffix_of_hexEscape? (h : hexEscape? text = some (codes, after)) : after <:+ text := by
  unfold hexEscape? at h
  split at h
  · rename_i a b rest
    rcases Option.map_eq_some_iff.1 h with ⟨code, _, same⟩
    cases same
    exact ⟨[a, b], rfl⟩
  · cases h

theorem suffix_of_unicodeEscape? (h : unicodeEscape? text = some (codes, after)) :
    after <:+ text := by
  unfold unicodeEscape? at h
  split at h
  · rcases Option.bind_eq_some_iff.1 h with ⟨⟨digits, behind⟩, found, h⟩
    rcases Option.bind_eq_some_iff.1 h with ⟨code, _, h⟩
    split at h
    · cases h
      exact (suffix_of_upToBrace? found).trans (List.suffix_cons _ _)
    · cases h
  · rename_i a b c d rest _
    rcases Option.map_eq_some_iff.1 h with ⟨code, _, same⟩
    cases same
    exact ⟨[a, b, c, d], rfl⟩
  · cases h

theorem behindReturn_suffix (text : List Char) : behindReturn text <:+ text := by
  unfold behindReturn
  split
  · exact List.suffix_cons _ _
  · exact List.suffix_refl _

theorem suffix_of_escape? {c : Char} (h : escape? (c :: text) = some (codes, after)) :
    after <:+ text := by
  rw [escape?] at h
  split at h
  · cases h
    exact List.suffix_refl _
  split at h
  · cases h
    exact List.suffix_refl _
  split at h
  · cases h
  split at h
  · exact suffix_of_hexEscape? h
  split at h
  · exact suffix_of_unicodeEscape? h
  split at h
  · cases h
    exact behindReturn_suffix text
  split at h
  · cases h
    exact List.suffix_refl _
  · cases h
    exact List.suffix_refl _

theorem suffix_of_first? {c : Char} (h : first? c text = some (items, after)) : after <:+ text := by
  unfold first? at h
  split at h
  · cases h
  split at h
  · rcases Option.map_eq_some_iff.1 h with ⟨⟨codes, behind⟩, found, same⟩
    cases same
    cases text with
    | nil => cases found
    | cons d rest => exact (suffix_of_escape? found).trans (List.suffix_cons _ _)
  split at h
  · cases h
    exact behindReturn_suffix text
  split at h
  · rcases substitution?_eq_some_iff.1 h with ⟨name, _, _, same⟩
    refine List.IsSuffix.trans ?_ (List.tail_suffix text)
    rw [same]
    exact (List.suffix_cons _ _).trans (List.suffix_append _ _)
  · cases h
    exact List.suffix_refl _

/-- The inside of a literal, if it is one: no backtick ends it early. -/
def read : List Char → Option (List Item)
  | [] => some []
  | c :: rest =>
      match _h : first? c rest with
      | some (items, after) => (read after).map (items ++ ·)
      | none => none
termination_by text => text.length
decreasing_by
  exact Nat.lt_succ_of_le (suffix_of_first? _h).length_le

/-! ## Sizes -/

/-- The size of a text, which counts no backtick: what an address writes for a backtick is as large
as what it stands for. -/
def size (text : List Char) : Nat :=
  (units (text.filter (· != backtick))).length

/-- The size of an item, which is that of its spelling. -/
def Item.size : Item → Nat
  | unit _ => 1
  | value name => TemplateLiteral.size name + 3

/-- The size of items, one after the other. -/
def sizes : List Item → Nat
  | [] => 0
  | item :: rest => item.size + sizes rest

theorem size_backtick (text : List Char) : size (backtick :: text) = size text := rfl

theorem size_cons {c : Char} (other : c ≠ backtick) (text : List Char) :
    size (c :: text) = (unitsOfCode c.toNat).length + size text := by
  have kept : (c :: text).filter (· != backtick) = c :: text.filter (· != backtick) :=
    List.filter_cons_of_pos (bne_iff_ne.2 other)
  rw [size, kept, units_cons, List.length_append, size]

theorem size_basic {c : Char} (other : c ≠ backtick) (basic : c.toNat < 0x10000)
    (text : List Char) : size (c :: text) = size text + 1 := by
  rw [size_cons other, unitsOfCode, if_pos basic, Nat.add_comm]
  rfl

theorem size_append (text other : List Char) : size (text ++ other) = size text + size other := by
  rw [size, List.filter_append, units, List.flatMap_append, List.length_append]
  rfl

theorem size_value (name rest : List Char) :
    size ('$' :: '{' :: (name ++ '}' :: rest)) = (Item.value name).size + size rest := by
  rw [size_basic (by decide) (by decide), size_basic (by decide) (by decide), size_append,
    size_basic (by decide) (by decide), Item.size]
  omega

theorem size_le_of_suffix {text other : List Char} (h : text <:+ other) :
    size text ≤ size other := by
  rcases h with ⟨front, rfl⟩
  rw [size_append]
  exact Nat.le_add_left _ _

theorem sizes_append (items others : List Item) :
    sizes (items ++ others) = sizes items + sizes others := by
  induction items with
  | nil => exact (Nat.zero_add _).symm
  | cons item rest ih => rw [List.cons_append, sizes, ih, sizes, Nat.add_assoc]

theorem sizes_map_unit (codes : List Nat) : sizes (codes.map .unit) = codes.length := by
  induction codes with
  | nil => rfl
  | cons code rest ih => rw [List.map_cons, sizes, ih, List.length_cons, Nat.add_comm, Item.size]

theorem size_hexEscape? (h : hexEscape? text = some (codes, after)) :
    codes.length + size after ≤ 1 + size text := by
  have smaller := size_le_of_suffix (suffix_of_hexEscape? h)
  unfold hexEscape? at h
  split at h
  · rcases Option.map_eq_some_iff.1 h with ⟨code, _, same⟩
    cases same
    exact Nat.add_le_add_left smaller 1
  · cases h

theorem size_unicodeEscape? (h : unicodeEscape? text = some (codes, after)) :
    codes.length + size after ≤ 1 + size text := by
  have smaller := size_le_of_suffix (suffix_of_unicodeEscape? h)
  unfold unicodeEscape? at h
  split at h
  · rename_i rest
    rcases Option.bind_eq_some_iff.1 h with ⟨⟨digits, behind⟩, found, h⟩
    rcases Option.bind_eq_some_iff.1 h with ⟨code, _, h⟩
    split at h
    · cases h
      -- The braces are as large as a pair of units.
      have pair := length_unitsOfCode_le code
      rw [(upToBrace?_eq_some_iff.1 found).1, size_basic (by decide) (by decide), size_append,
        size_basic (by decide) (by decide)]
      omega
    · cases h
  · rcases Option.map_eq_some_iff.1 h with ⟨code, _, same⟩
    cases same
    exact Nat.add_le_add_left smaller 1
  · cases h

/-- What an escape stands for is not larger than what is written behind the backslash, unless that
is a backtick. -/
theorem size_escape? {c : Char} (h : escape? (c :: text) = some (codes, after))
    (other : c ≠ backtick) : codes.length + size after ≤ size (c :: text) := by
  rw [size_cons other]
  have one := one_le_length_unitsOfCode
  have smaller := size_le_of_suffix (suffix_of_escape? h)
  rw [escape?] at h
  split at h
  · cases h
    exact Nat.add_le_add_right (one c.toNat) _
  split at h
  · cases h
    exact Nat.add_le_add_right (one c.toNat) _
  split at h
  · cases h
  split at h
  · exact (size_hexEscape? h).trans (Nat.add_le_add_right (one c.toNat) _)
  split at h
  · exact (size_unicodeEscape? h).trans (Nat.add_le_add_right (one c.toNat) _)
  split at h
  · cases h
    exact Nat.add_le_add (Nat.zero_le _) smaller
  split at h
  · cases h
    exact Nat.add_le_add (Nat.zero_le _) smaller
  · cases h
    exact Nat.le_refl _

/-- Nothing is larger than its spelling. -/
theorem sizes_first? {c : Char} (h : first? c text = some (items, after)) :
    sizes items + size after ≤ size (c :: text) := by
  have smaller := size_le_of_suffix (suffix_of_first? h)
  unfold first? at h
  split at h
  · cases h
  rename_i other
  rw [size_cons other]
  have one := one_le_length_unitsOfCode c.toNat
  split at h
  · rcases Option.map_eq_some_iff.1 h with ⟨⟨codes, behind⟩, found, same⟩
    cases same
    rw [sizes_map_unit]
    cases text with
    | nil => cases found
    | cons d rest =>
        -- A backtick has no size, so the backslash in front of it stands for what it gives.
        by_cases escaped : d = backtick
        · subst escaped
          cases found
          exact Nat.add_le_add_right one _
        · exact (size_escape? found escaped).trans (Nat.le_add_left _ _)
  split at h
  · cases h
    exact Nat.add_le_add one smaller
  split at h
  · rename_i opening
    rcases substitution?_eq_some_iff.1 h with ⟨name, rfl, _, same⟩
    rcases List.head?_eq_some_iff.1 opening.2 with ⟨rest, rfl⟩
    rw [← size_cons other, opening.1, show rest = name ++ '}' :: after from same, size_value]
    exact Nat.le_refl _
  · cases h
    rw [sizes_map_unit]

/-- What a text means is not larger than the text. -/
theorem sizes_read (h : read text = some items) : sizes items ≤ size text := by
  induction hn : text.length using Nat.strongRecOn generalizing text items with
  | ind n ih =>
      subst hn
      cases text with
      | nil =>
          cases (read.eq_def []).symm.trans h
          exact Nat.le_refl 0
      | cons c rest =>
          rw [read] at h
          split at h
          · rename_i first after found
            rcases Option.map_eq_some_iff.1 h with ⟨others, tail, rfl⟩
            have shorter := Nat.lt_succ_of_le (suffix_of_first? found).length_le
            have behind := ih _ shorter tail rfl
            rw [sizes_append]
            exact (Nat.add_le_add_left behind _).trans (sizes_first? found)
          · cases h

/-! ## Reading what is plain -/

theorem read_nil : read [] = some [] := by
  rw [read]

theorem read_cons {c : Char} (h : first? c text = some (items, after)) :
    read (c :: text) = (read after).map (items ++ ·) := by
  rw [read]
  split
  · rename_i found
    cases h.symm.trans found
    rfl
  · rename_i absent
    cases h.symm.trans absent

/-- What stands first is the start of the meaning. -/
theorem exists_of_read_cons {c : Char} (h : read (c :: text) = some items) :
    ∃ first after others, first? c text = some (first, after) ∧ read after = some others ∧
      items = first ++ others := by
  rw [read] at h
  split at h
  · rename_i first after found
    rcases Option.map_eq_some_iff.1 h with ⟨others, tail, rfl⟩
    exact ⟨first, after, others, found, tail, rfl⟩
  · cases h

/-- A substitution means its variable exactly if that has a name that a variable can have. -/
theorem read_value_iff {rest : List Char} :
    read ('$' :: '{' :: (name ++ '}' :: rest)) = some (.value name :: items) ↔
      isName name = true ∧ read rest = some items := by
  have opened : first? '$' ('{' :: (name ++ '}' :: rest)) =
      substitution? (name ++ '}' :: rest) := by
    rw [first?, if_neg (by decide), if_neg (by decide), if_neg (by decide), if_pos ⟨rfl, rfl⟩]
    rfl
  constructor
  · intro h
    rcases exists_of_read_cons h with ⟨first, after, others, found, tail, same⟩
    rw [opened] at found
    rcases substitution?_eq_some_iff.1 found with ⟨found, rfl, named, split⟩
    cases same
    cases List.append_cancel_left split
    exact ⟨named, tail⟩
  · rintro ⟨named, tail⟩
    rw [read_cons (opened.trans (substitution?_eq_some_iff.2 ⟨name, rfl, named, rfl⟩)), tail]
    rfl

/-- The text of an address, where nothing but backticks needs an escape. -/
structure Plain (text : List Char) : Prop where
  backslash : '\\' ∉ text
  carriageReturn : '\r' ∉ text
  substitution : ¬ ['$', '{'] <:+: text

/-- A character that does not stand for itself in front of a text. -/
def IsSpecial (c : Char) (rest : List Char) : Prop :=
  c = '\\' ∨ c = '\r' ∨ c = '$' ∧ rest.head? = some '{'

theorem plain_nil : Plain [] :=
  ⟨List.not_mem_nil, List.not_mem_nil, by simp⟩

theorem plain_cons_iff {c : Char} : Plain (c :: text) ↔ ¬ IsSpecial c text ∧ Plain text := by
  have opening : ['$', '{'] <+: c :: text ↔ c = '$' ∧ text.head? = some '{' := by
    rw [List.cons_prefix_cons, List.singleton_prefix_iff_head?_eq_some, eq_comm (a := '$')]
  constructor
  · rintro ⟨backslash, carriageReturn, substitution⟩
    rw [List.mem_cons, not_or] at backslash carriageReturn
    rw [List.infix_cons_iff, not_or, opening] at substitution
    refine ⟨?_, backslash.2, carriageReturn.2, substitution.2⟩
    rintro (rfl | rfl | special)
    · exact backslash.1 rfl
    · exact carriageReturn.1 rfl
    · exact substitution.1 special
  · rintro ⟨special, backslash, carriageReturn, substitution⟩
    refine ⟨?_, ?_, ?_⟩
    · rw [List.mem_cons, not_or]
      exact ⟨fun same => special (.inl same.symm), backslash⟩
    · rw [List.mem_cons, not_or]
      exact ⟨fun same => special (.inr (.inl same.symm)), carriageReturn⟩
    · rw [List.infix_cons_iff, not_or, opening]
      exact ⟨fun same => special (.inr (.inr same)), substitution⟩

/-- Text as an address writes it. -/
def escaped (text : List Char) : List Char :=
  text.flatMap escapeFixed

theorem escaped_cons {c : Char} (other : c ≠ backtick) (text : List Char) :
    escaped (c :: text) = c :: escaped text := by
  have kept : escapeFixed c = [c] := if_neg (by simpa using other)
  rw [escaped, List.flatMap_cons, kept]
  rfl

theorem escaped_backtick (text : List Char) :
    escaped (backtick :: text) = '\\' :: backtick :: escaped text := rfl

/-- As it is written, a text is as large as what it means. -/
theorem size_escaped (text : List Char) : size (escaped text) = (units text).length := by
  induction text with
  | nil => rfl
  | cons c rest ih =>
      rw [units_cons, List.length_append, ← ih]
      by_cases other : c = backtick
      · rw [other, escaped_backtick, size_cons (by decide), size_backtick]
        rfl
      · rw [escaped_cons other, size_cons other]

/-- What stands behind a fixed text: nothing, or a substitution. -/
def Follows (tail : List Char) : Prop :=
  ∀ c ∈ tail.head?, c = '$'

variable {tail : List Char}

theorem head?_escaped (follows : Follows tail) {c : Char}
    (h : (escaped text ++ tail).head? = some c) :
    c ≠ backtick ∧ (c = '{' ↔ text.head? = some '{') := by
  cases text with
  | nil =>
      obtain rfl := follows c h
      decide
  | cons d rest =>
      by_cases other : d = backtick
      · rw [other, escaped_backtick] at h
        cases h
        simp [backtick, other]
      · rw [escaped_cons other] at h
        cases h
        simp [other]

theorem read_cons_iff {c : Char} {rest : List Char} {first : List Item}
    (h : first? c rest = some (first, after)) :
    read (c :: rest) = some (first ++ items) ↔ read after = some items := by
  rw [read_cons h, Option.map_eq_some_iff]
  constructor
  · rintro ⟨others, tail, same⟩
    rw [tail, List.append_cancel_left same]
  · intro tail
    exact ⟨items, tail, rfl⟩

/-- A character that is not special means itself. -/
theorem read_escaped_cons_iff {c : Char} (follows : Follows tail) (plain : ¬ IsSpecial c text) :
    read (escaped (c :: text) ++ tail) = some ((unitsOfCode c.toNat).map .unit ++ items) ↔
      read (escaped text ++ tail) = some items := by
  by_cases other : c = backtick
  · rw [other, escaped_backtick]
    exact read_cons_iff rfl
  · rw [escaped_cons other]
    refine read_cons_iff ?_
    rw [IsSpecial, not_or, not_or] at plain
    have closed : ¬ (c = '$' ∧ (escaped text ++ tail).head? = some '{') :=
      fun ⟨sign, opened⟩ => plain.2.2 ⟨sign, (head?_escaped follows opened).2.1 rfl⟩
    rw [first?, if_neg other, if_neg plain.1, if_neg plain.2.1]
    exact if_neg closed

/-- What a backslash and the text behind it mean is smaller than they are. -/
theorem read_backslash_ne (unescaped : text.head? ≠ some backtick)
    (sized : sizes items = size text) : read ('\\' :: text) ≠ some (.unit 92 :: items) := by
  intro h
  rcases exists_of_read_cons h with ⟨first, after, others, found, behind, same⟩
  rw [first?, if_neg (by decide), if_pos rfl] at found
  rcases Option.map_eq_some_iff.1 found with ⟨⟨codes, _⟩, escape, together⟩
  cases together
  cases text with
  | nil => cases escape
  | cons d rest =>
      have other : d ≠ backtick := fun same => unescaped (congrArg some same)
      have lost : 1 + sizes items = codes.length + sizes others := by
        rw [← sizes_map_unit codes, ← sizes_append, ← same]
        rfl
      have kept := size_escape? escape other
      have rest := sizes_read behind
      omega

/-- A special character does not mean itself. -/
theorem read_escaped_cons_ne {c : Char} (follows : Follows tail) (special : IsSpecial c text)
    (sized : sizes items = size (escaped text ++ tail)) :
    read (escaped (c :: text) ++ tail) ≠ some ((unitsOfCode c.toNat).map .unit ++ items) := by
  rcases special with rfl | rfl | ⟨rfl, opened⟩
  · rw [escaped_cons (by decide)]
    exact read_backslash_ne (fun h => (head?_escaped follows h).1 rfl) sized
  · rw [escaped_cons (by decide)]
    intro h
    rcases exists_of_read_cons h with ⟨first, after, others, found, _, same⟩
    cases found
    cases same
  · rw [escaped_cons (by decide)]
    intro h
    rcases exists_of_read_cons h with ⟨first, after, others, found, _, same⟩
    have opened' : (escaped text ++ tail).head? = some '{' := by
      rcases List.head?_eq_some_iff.1 opened with ⟨rest, rfl⟩
      rw [escaped_cons (by decide)]
      rfl
    rw [List.append_eq] at found
    rw [first?, if_neg (by decide), if_neg (by decide), if_neg (by decide),
      if_pos ⟨rfl, opened'⟩] at found
    rcases substitution?_eq_some_iff.1 found with ⟨name, rfl, _, _⟩
    cases same

/-- Fixed text means itself exactly if it is plain. -/
theorem read_fixed_iff (follows : Follows tail) (sized : sizes items = size tail) :
    read (escaped text ++ tail) = some ((units text).map .unit ++ items) ↔
      Plain text ∧ read tail = some items := by
  induction text with
  | nil => exact (and_iff_right plain_nil).symm
  | cons c rest ih =>
      rw [units_cons, List.map_append, List.append_assoc, plain_cons_iff, and_assoc, ← ih]
      by_cases special : IsSpecial c rest
      · refine iff_of_false (read_escaped_cons_ne follows special ?_) fun h => h.1 special
        rw [sizes_append, sizes_map_unit, sized, size_append, size_escaped]
      · rw [and_iff_right special]
        exact read_escaped_cons_iff follows special

example : read (escaped "a\x60b".toList ++ "$\x7bid\x7d".toList) =
    some [.unit 97, .unit 96, .unit 98, .value ['i', 'd']] := by
  decide +kernel

end HyperSchema.TemplateLiteral
