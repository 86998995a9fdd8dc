import HyperSchema.Proofs.Endpoint.Faults
import HyperSchema.Proofs.Text.Parts

/-!
# Placeholders — the address that a text describes, told by positions

An address is read piece by piece.  Here its placeholders are told by where they stand in the text.
This file defines:

* `Address.SlotAt`, a placeholder at a position of a text, and `Address.LeftmostSlots`, the leftmost
  ones that do not overlap;
* `Address.leftmostSlots_iff`: these are the placeholders among the pieces;
* `Address.Identifies`, the pointers that denote an identity, and `Address.identities`, the
  placeholders with such a pointer;
* `Address.parse_of_slots`: without an identity the text stands for itself, one identity cuts it,
  and several are an error.
-/

namespace HyperSchema.Address

variable {text inner after other : List Char} {start i : Nat}

/-! ## Placeholders in a text -/

/-- A placeholder stands at a position of a text: two opening signs, an inside without a closing
parenthesis, and two closing signs. -/
structure SlotAt (text : List Char) (i : Nat) (inner : List Char) : Prop where
  stands : '{' :: '(' :: (inner ++ [')', '}']) <+: text.drop i
  free : ')' ∉ inner

/-- The leftmost placeholders of a text from a position on that do not overlap. -/
inductive LeftmostSlots (text : List Char) : Nat → List (Nat × List Char) → Prop where
  /-- No placeholder stands there or later. -/
  | none {start : Nat} : (∀ i inner, start ≤ i → ¬ SlotAt text i inner) →
      LeftmostSlots text start []
  /-- The first one stands somewhere, and the others behind it. -/
  | next {start i : Nat} {inner : List Char} {others : List (Nat × List Char)} :
      start ≤ i → SlotAt text i inner → (∀ j other, start ≤ j → j < i → ¬ SlotAt text j other) →
        LeftmostSlots text (i + (inner.length + 4)) others →
          LeftmostSlots text start ((i, inner) :: others)

theorem takeWhile_free {c : Char} (free : c ∉ inner) (rest : List Char) :
    (inner ++ c :: rest).takeWhile (· != c) = inner := by
  have all : ∀ d ∈ inner, (d != c) = true :=
    fun d mem => bne_iff_ne.2 fun same => free (same ▸ mem)
  rw [List.takeWhile_append_of_pos all, List.takeWhile_cons_of_neg (by simp), List.append_nil]

theorem dropWhile_free {c : Char} (free : c ∉ inner) (rest : List Char) :
    (inner ++ c :: rest).dropWhile (· != c) = c :: rest := by
  have all : ∀ d ∈ inner, (d != c) = true :=
    fun d mem => bne_iff_ne.2 fun same => free (same ▸ mem)
  rw [List.dropWhile_append_of_pos all, List.dropWhile_cons_of_neg (by simp)]

theorem slot?_eq_some_iff :
    slot? text = some (inner, after) ↔
      text = '{' :: '(' :: (inner ++ ')' :: '}' :: after) ∧ ')' ∉ inner := by
  constructor
  · intro h
    unfold slot? at h
    split at h
    · rename_i rest
      split at h
      · rename_i behind closed
        cases h
        refine ⟨?_, fun mem => by simpa using List.all_eq_true.1 List.all_takeWhile _ mem⟩
        rw [← closed, List.takeWhile_append_dropWhile]
      · cases h
    · cases h
  · rintro ⟨rfl, free⟩
    simp only [slot?, takeWhile_free free, dropWhile_free free]

theorem slotAt_iff : SlotAt text i inner ↔ ∃ after, slot? (text.drop i) = some (inner, after) := by
  constructor
  · rintro ⟨⟨after, same⟩, free⟩
    refine ⟨after, slot?_eq_some_iff.2 ⟨?_, free⟩⟩
    rw [← same]
    simp
  · rintro ⟨after, h⟩
    rcases slot?_eq_some_iff.1 h with ⟨same, free⟩
    exact ⟨⟨after, by rw [same]; simp⟩, free⟩

/-- At most one placeholder stands at a position. -/
theorem SlotAt.unique (h : SlotAt text i inner) (h' : SlotAt text i other) : inner = other := by
  rcases slotAt_iff.1 h with ⟨after, found⟩
  rcases slotAt_iff.1 h' with ⟨after', found'⟩
  cases found.symm.trans found'
  rfl

theorem LeftmostSlots.unique {slots others : List (Nat × List Char)}
    (h : LeftmostSlots text start slots) (h' : LeftmostSlots text start others) :
    others = slots := by
  induction h generalizing others with
  | none absent =>
      cases h' with
      | none => rfl
      | next behind stands => exact absurd stands (absent _ _ behind)
  | @next start i inner rest behind stands first _ ih =>
      cases h' with
      | none absent => exact absurd stands (absent _ _ behind)
      | @next _ j other rest' behind' stands' first' tail' =>
          -- Neither of the two stands before the other.
          have same : j = i := by
            rcases Nat.lt_trichotomy i j with before | same | before
            · exact absurd stands (first' i inner behind before)
            · exact same.symm
            · exact absurd stands' (first j other behind' before)
          subst same
          obtain rfl := stands.unique stands'
          rw [ih tail']

/-- Where no placeholder stands, those from there on are those from the next position on. -/
theorem LeftmostSlots.skip {slots : List (Nat × List Char)}
    (absent : ∀ inner, ¬ SlotAt text start inner) (h : LeftmostSlots text (start + 1) slots) :
    LeftmostSlots text start slots := by
  have here : ∀ i inner, start ≤ i → SlotAt text i inner → start + 1 ≤ i := by
    intro i inner behind stands
    refine Nat.lt_of_le_of_ne behind ?_
    rintro rfl
    exact absent inner stands
  cases h with
  | none later =>
      exact .none fun i inner behind stands => later i inner (here i inner behind stands) stands
  | next behind stands first tail =>
      exact .next (Nat.le_of_succ_le behind) stands
        (fun j other behind' before stands' =>
          first j other (here j other behind' stands') before stands') tail

/-! ## Pieces -/

theorem pieces_of_slot (h : slot? text = some (inner, after)) :
    pieces text = .slot inner :: pieces after := by
  rw [pieces]
  split
  · rename_i found
    cases h.symm.trans found
    rfl
  · rename_i absent
    cases h.symm.trans absent

theorem pieces_nil : pieces [] = [] := by
  rw [pieces]
  rfl

theorem pieces_cons {c : Char} (h : slot? (c :: text) = none) :
    pieces (c :: text) = .char c :: pieces text := by
  rw [pieces]
  split
  · rename_i found
    cases h.symm.trans found
  · rfl

/-- The placeholders among pieces, each with the position where it starts; the first piece starts
at the given one. -/
def slotsFrom : Nat → List Piece → List (Nat × List Char)
  | _, [] => []
  | i, .char _ :: rest => slotsFrom (i + 1) rest
  | i, .slot inner :: rest => (i, inner) :: slotsFrom (i + (inner.length + 4)) rest

/-- What stands behind a placeholder. -/
theorem drop_of_slot? (h : slot? (text.drop i) = some (inner, after)) :
    after = text.drop (i + (inner.length + 4)) := by
  have same := (slot?_eq_some_iff.1 h).1
  rw [← List.drop_drop, same]
  simp [← List.drop_drop]

theorem leftmostSlots_pieces (text : List Char) (start : Nat) :
    LeftmostSlots text start (slotsFrom start (pieces (text.drop start))) := by
  induction hn : (text.drop start).length using Nat.strongRecOn generalizing start with
  | ind n ih =>
      subst hn
      cases found : slot? (text.drop start) with
      | some pair =>
          -- A placeholder stands here, so none is passed over in front of it.
          rcases pair with ⟨inner, after⟩
          have behind := drop_of_slot? found
          have shorter := length_lt_of_slot? found
          rw [pieces_of_slot found, slotsFrom]
          rw [behind] at shorter ⊢
          exact .next (Nat.le_refl _) (slotAt_iff.2 ⟨after, found⟩)
            (fun j other le lt => absurd lt (Nat.not_lt.2 le)) (ih _ shorter _ rfl)
      | none =>
          have absent : ∀ inner, ¬ SlotAt text start inner := by
            intro inner stands
            rcases slotAt_iff.1 stands with ⟨after, found'⟩
            cases found.symm.trans found'
          cases rest : text.drop start with
          | nil =>
              rw [pieces_nil]
              -- No placeholder stands at the end of the text or behind it.
              refine .none fun i inner behind stands => ?_
              have empty : text.drop i = [] :=
                List.drop_eq_nil_of_le ((List.drop_eq_nil_iff.1 rest).trans behind)
              have none := stands.stands
              rw [empty, List.prefix_nil] at none
              cases none
          | cons c rest' =>
              have behind : rest' = text.drop (start + 1) := by
                rw [← List.drop_drop, rest]
                rfl
              rw [rest] at found
              rw [pieces_cons found, slotsFrom, behind]
              refine .skip absent (ih _ ?_ _ rfl)
              rw [rest, behind]
              simp

/-- The leftmost placeholders that do not overlap are those among the pieces. -/
theorem leftmostSlots_iff {slots : List (Nat × List Char)} :
    LeftmostSlots text 0 slots ↔ slots = slotsFrom 0 (pieces text) := by
  have found := leftmostSlots_pieces text 0
  rw [List.drop_zero] at found
  constructor
  · exact found.unique
  · rintro rfl
    exact found

/-- The pieces of a text are all of it. -/
theorem flatMap_spelling_pieces (text : List Char) :
    (pieces text).flatMap Piece.spelling = text := by
  induction hn : text.length using Nat.strongRecOn generalizing text with
  | ind n ih =>
      subst hn
      cases found : slot? text with
      | some pair =>
          rcases pair with ⟨inner, after⟩
          rw [pieces_of_slot found, List.flatMap_cons, ih _ (length_lt_of_slot? found) _ rfl,
            (slot?_eq_some_iff.1 found).1]
          simp [Piece.spelling]
      | none =>
          cases text with
          | nil => rw [pieces_nil, List.flatMap_nil]
          | cons c rest =>
              rw [pieces_cons found, List.flatMap_cons, ih _ (by simp) _ rfl]
              rfl

/-! ## Identities -/

/-- A pointer denotes the identity of the entity with a name: it ends in
`definitions/NAME/definitions/identity`, and the name has no slash in it. -/
structure Identifies (pointer name : List Char) : Prop where
  nonempty : name ≠ []
  free : '/' ∉ name
  ends : "definitions/".toList ++ name ++ "/definitions/identity".toList <:+ pointer

/-- The segments of a pointer that ends in these four. -/
theorem splitOn_identity {first name : List Char} (free : '/' ∉ name) :
    Text.splitOn '/' (first ++ '/' :: (name ++ "/definitions/identity".toList)) =
      Text.splitOn '/' first ++ [name, "definitions".toList, "identity".toList] := by
  have same : first ++ '/' :: (name ++ "/definitions/identity".toList) =
      ((first ++ '/' :: name) ++ '/' :: "definitions".toList) ++ '/' :: "identity".toList := by
    simp
  rw [same, Text.splitOn_append_last (by decide), Text.splitOn_append_last (by decide),
    Text.splitOn_append_last free]
  simp

theorem identityName?_eq_some_iff {pointer name : List Char} :
    identityName? pointer = some name ↔ Identifies pointer name := by
  constructor
  · intro h
    unfold identityName? at h
    split at h
    · rename_i last third found first before segments
      split at h
      · rename_i checks
        cases h
        simp only [Bool.and_eq_true, beq_iff_eq, Bool.not_eq_true', List.isEmpty_eq_false_iff]
          at checks
        rcases checks with ⟨⟨⟨rfl, rfl⟩, nonempty⟩, ends⟩
        -- The last four segments, put together again, are what the pointer ends with.
        have all : Text.splitOn '/' pointer = before.reverse ++
            [first, name, "definitions".toList, "identity".toList] := by
          rw [← List.reverse_reverse (Text.splitOn '/' pointer), segments]
          simp
        have mem : name ∈ Text.splitOn '/' pointer := by
          rw [all]
          simp
        refine ⟨nonempty, Text.not_mem_of_mem_splitOn mem, ?_⟩
        have behind : ['/'].intercalate
            [first, name, "definitions".toList, "identity".toList] <:+ pointer := by
          rw [← Text.intercalate_splitOn '/' pointer, all]
          exact Text.suffix_intercalate (List.cons_ne_nil _ _) before.reverse
        rcases List.isSuffixOf_iff_suffix.1 ends with ⟨front, rfl⟩
        refine List.IsSuffix.trans ⟨front, ?_⟩ behind
        simp
      · cases h
    · cases h
  · rintro ⟨nonempty, free, front, rfl⟩
    -- What stands in front may reach into the segment that ends in the first word.
    have same : front ++ ("definitions/".toList ++ name ++ "/definitions/identity".toList) =
        (front ++ "definitions".toList) ++ '/' :: (name ++ "/definitions/identity".toList) := by
      simp
    have apart : '/' ∉ "definitions".toList := by decide
    rcases Text.splitOn_append_free apart front with ⟨others, last, pieces⟩
    have ends : Naming.endsWith (last ++ "definitions".toList) "definitions".toList = true :=
      List.isSuffixOf_iff_suffix.2 (List.suffix_append _ _)
    unfold identityName?
    rw [same, splitOn_identity free, pieces]
    simpa [nonempty] using ends

instance (pointer : List Char) : Decidable (∃ name, Identifies pointer name) :=
  decidable_of_iff ((identityName? pointer).isSome = true)
    (by simp only [Option.isSome_iff_exists, identityName?_eq_some_iff])

/-- The placeholders that identify an entity. -/
def identities (slots : List (Nat × List Char)) : List (Nat × List Char) :=
  slots.filter fun slot => decide (∃ name, Identifies (Text.percentDecode slot.2) name)

theorem isSome_identity?_slot (inner : List Char) :
    (Piece.slot inner).identity?.isSome =
      decide (∃ name, Identifies (Text.percentDecode inner) name) := by
  rw [Bool.eq_iff_iff, decide_eq_true_iff, Option.isSome_iff_exists]
  simp only [Piece.identity?, identityName?_eq_some_iff]

/-- As many pieces are identities as there are identities among their placeholders. -/
theorem length_identities (start : Nat) (found : List Piece) :
    (identities (slotsFrom start found)).length = (found.filterMap Piece.identity?).length := by
  induction found generalizing start with
  | nil => rfl
  | cons piece rest ih =>
      cases piece with
      | char c => exact ih (start + 1)
      | slot inner =>
          have here := isSome_identity?_slot inner
          rw [slotsFrom, identities, List.filter_cons, List.filterMap_cons]
          dsimp only
          cases found : (Piece.slot inner).identity? with
          | none =>
              rw [found] at here
              rw [← here]
              exact ih _
          | some name =>
              rw [found] at here
              rw [← here]
              exact congrArg (· + 1) (ih _)

/-- The first identity cuts the pieces: those in front identify nothing, and fill the text up to
where it stands. -/
theorem exists_split_of_identities {found : List Piece} {others : List (Nat × List Char)}
    (h : identities (slotsFrom start found) = (i, inner) :: others) :
    ∃ before after name, found = before ++ .slot inner :: after ∧
      (∀ piece ∈ before, piece.identity? = none) ∧ (Piece.slot inner).identity? = some name ∧
      i = start + (before.flatMap Piece.spelling).length := by
  induction found generalizing start with
  | nil => cases h
  | cons piece rest ih =>
      -- What stands in front of the others moves them by its length.
      have behind {start' : Nat} (none : piece.identity? = none)
          (moved : start' = start + piece.spelling.length)
          (h : identities (slotsFrom start' rest) = (i, inner) :: others) :
          ∃ before after name, piece :: rest = before ++ .slot inner :: after ∧
            (∀ piece ∈ before, piece.identity? = .none) ∧
            (Piece.slot inner).identity? = some name ∧
            i = start + (before.flatMap Piece.spelling).length := by
        rcases ih h with ⟨before, after, name, rfl, idle, named, place⟩
        refine ⟨piece :: before, after, name, rfl, List.forall_mem_cons.2 ⟨none, idle⟩, named, ?_⟩
        rw [place, moved, List.flatMap_cons, List.length_append, Nat.add_assoc]
      cases piece with
      | char c => exact behind rfl rfl h
      | slot first =>
          rw [slotsFrom, identities, List.filter_cons] at h
          dsimp only at h
          rw [← isSome_identity?_slot] at h
          cases found : (Piece.slot first).identity? with
          | none =>
              rw [found] at h
              refine behind found ?_ h
              simp [Piece.spelling]
          | some name =>
              rw [found] at h
              cases h
              exact ⟨[], rest, name, rfl, nofun, found, rfl⟩

/-! ## Reading -/

variable {href resource : String}

/-- Text as a part of an address; no text gives no part. -/
def fixedText (text : List Char) : List Part :=
  if text = [] then [] else [.fixed (String.ofList text)]

theorem fixedPart_eq (found : List Piece) :
    fixedPart found = fixedText (found.flatMap Piece.spelling) := by
  unfold fixedPart fixedText
  cases found.flatMap Piece.spelling with
  | nil => rfl
  | cons c rest => rfl

theorem around_of_idle {before found : List Piece}
    (idle : ∀ piece ∈ found, piece.identity? = none) : around resource before found = none := by
  induction found generalizing before with
  | nil => rfl
  | cons piece rest ih =>
      rw [List.forall_mem_cons] at idle
      rw [around, idle.1]
      exact ih idle.2

theorem around_of_split {start before after : List Piece} {piece : Piece} {name : List Char}
    (idle : ∀ piece ∈ before, piece.identity? = none) (named : piece.identity? = some name) :
    around resource start (before ++ piece :: after) =
      some {
        parts := fixedPart (start.reverse ++ before) ++
          .valueOf (Naming.camelCase (String.ofList name ++ "_id")) :: fixedPart after
        parameter := some {
          name := Naming.camelCase (String.ofList name ++ "_id")
          isOwn := String.ofList name == resource
          entity := String.ofList name } } := by
  induction before generalizing start with
  | nil =>
      rw [List.nil_append, around, named, List.append_nil]
  | cons first rest ih =>
      rw [List.forall_mem_cons] at idle
      rw [List.cons_append, around, idle.1]
      dsimp only
      rw [ih idle.2, List.reverse_cons, List.append_assoc]
      rfl

theorem result_parse (href resource : String) :
    (parse href resource).result =
      if 1 < (identities (slotsFrom 0 (pieces href.toList))).length then
        .error (.severalIdentities href (identities (slotsFrom 0 (pieces href.toList))).length)
      else
        .ok ((around resource [] (pieces href.toList)).getD
          { parts := [.fixed href], parameter := none }) := by
  rw [length_identities, parse]
  dsimp only
  rw [Checked.result_bind_of_ok (Endpoint.result_warnAll _)]
  split
  · rfl
  · rfl

/-- A text has one list of leftmost placeholders that do not overlap.  If none of them is an
identity, the text stands for itself.  If one of them is, what stands before it and behind it is
fixed, and it is the parameter, named after the entity.  Several are an error, which tells the text
and their number. -/
theorem parse_of_slots (href resource : String) :
    ∃ slots, (∀ others, LeftmostSlots href.toList 0 others ↔ others = slots) ∧
      match identities slots with
      | [] => (parse href resource).result = .ok { parts := [.fixed href], parameter := none }
      | [(i, inner)] =>
          let before := href.toList.take i
          let after := href.toList.drop (i + (inner.length + 4))
          href.toList = before ++ ('{' :: '(' :: (inner ++ [')', '}'])) ++ after ∧
          ∃ name, (∀ other, Identifies (Text.percentDecode inner) other ↔ other = name) ∧
            let entity := String.ofList name
            let parameter := Naming.camelCase (entity ++ "_id")
            (parse href resource).result = .ok {
              parts := fixedText before ++ [.valueOf parameter] ++ fixedText after
              parameter := some { name := parameter, isOwn := entity = resource, entity } }
      | several =>
          (parse href resource).result = .error (.severalIdentities href several.length) := by
  refine ⟨slotsFrom 0 (pieces href.toList), fun others => leftmostSlots_iff, ?_⟩
  have result := result_parse href resource
  split
  · rename_i none
    rw [none] at result
    have idle : ∀ piece ∈ pieces href.toList, piece.identity? = .none := by
      have count := length_identities 0 (pieces href.toList)
      rw [none] at count
      exact List.filterMap_eq_nil_iff.1 (List.length_eq_zero_iff.1 count.symm)
    rw [around_of_idle idle] at result
    exact result
  · rename_i i inner one
    rw [one] at result
    rcases exists_split_of_identities one with ⟨before, after, name, split, idle, named, place⟩
    have text := flatMap_spelling_pieces href.toList
    rw [split, List.flatMap_append, List.flatMap_cons] at text
    rw [Nat.zero_add] at place
    -- The pieces in front of the identity spell the text up to it, and the others what follows.
    have front : href.toList.take i = before.flatMap Piece.spelling := by
      rw [← text, place, List.take_left]
    have behind : href.toList.drop (i + (inner.length + 4)) = after.flatMap Piece.spelling := by
      rw [← text, place, ← List.drop_drop, List.drop_left]
      simp [Piece.spelling]
    dsimp only
    rw [front, behind]
    refine ⟨?_, name, ?_, ?_⟩
    · rw [← text, List.append_assoc]
      rfl
    · intro other
      rw [← identityName?_eq_some_iff]
      have known : identityName? (Text.percentDecode inner) = some name := named
      rw [known, Option.some.injEq, eq_comm]
    · rw [split, around_of_split idle named, List.reverse_nil, List.nil_append, fixedPart_eq,
        fixedPart_eq] at result
      rw [List.append_assoc]
      exact result
  · rename_i none one
    have several : 1 < (identities (slotsFrom 0 (pieces href.toList))).length := by
      rcases found : identities (slotsFrom 0 (pieces href.toList)) with _ | ⟨⟨i, inner⟩, _ | _⟩
      · exact absurd found none
      · exact absurd found (one i inner)
      · simp
    rw [result, if_pos several]

example : (parse "/x/{(%23/definitions/site)}/{(definitions/item%5Ftype/definitions/identity)}"
    "item_type").result = .ok {
      parts := [.fixed "/x/{(%23/definitions/site)}/", .valueOf "itemTypeId"]
      parameter := some { name := "itemTypeId", isOwn := true, entity := "item_type" } } := by
  decide +kernel

end HyperSchema.Address
