import HyperSchema.Proofs.Endpoint.TemplateLiteral
import Mathlib.Data.List.Chain

/-!
# Rendering — what a rendered address means

An address is rendered as the inside of a template literal, with its backticks escaped.  This file
defines:

* `Address.ReadsBack`, an address whose rendered text means what the address says;
* `Address.read_parts_iff`: where no fixed text is followed by another, parts mean together what
  each of them means;
* `Address.readsBack_iff`: the address that a text describes reads back exactly if its fixed text is
  free of everything else that a template literal treats as special.
-/

namespace HyperSchema.Address

open TemplateLiteral

/-! ## Addresses -/

/-- The name of the parameter that a part stands for. -/
def Part.name? : Part → Option (List Char)
  | fixed _ => none
  | valueOf name => some name.toList

/-- What a part says, where the parameter has a value. -/
def Part.string (value : List Nat) : Part → List Nat
  | fixed text => units text.toList
  | valueOf _ => value

/-- The rendered address is the inside of a literal that does not end early; it substitutes nothing
but the parameter, and for each value it is the fixed text as it stands with the value between. -/
def ReadsBack (address : Address) : Prop :=
  ∃ items, read address.render.toList = some items ∧
    items.filterMap Item.name? = address.parts.filterMap Part.name? ∧
    ∀ value, evaluate value items = address.parts.flatMap (Part.string value)

/-- A part as items. -/
def Part.items : Part → List Item
  | fixed text => (units text.toList).map .unit
  | valueOf name => [.value name.toList]

/-- A part that means itself as it is rendered. -/
def Part.MeansItself : Part → Prop
  | fixed text => Plain text.toList
  | valueOf name => isName name.toList = true

/-- No fixed text is followed by another. -/
def Alternates (parts : List Part) : Prop :=
  parts.IsChain fun part next => part.name? = none → next.name? ≠ none

theorem follows_render {parts : List Part} (h : ∀ part ∈ parts.head?, part.name? ≠ none) :
    Follows (parts.flatMap renderPart) := by
  cases parts with
  | nil => exact nofun
  | cons part rest =>
      cases part with
      | fixed text => exact absurd rfl (h _ rfl)
      | valueOf name =>
          intro c first
          cases first
          rfl

theorem sizes_items (parts : List Part) :
    sizes (parts.flatMap Part.items) = size (parts.flatMap renderPart) := by
  induction parts with
  | nil => rfl
  | cons part rest ih =>
      rw [List.flatMap_cons, List.flatMap_cons, sizes_append, size_append, ih]
      congr 1
      cases part with
      | fixed text => exact (sizes_map_unit _).trans (size_escaped text.toList).symm
      | valueOf name =>
          exact (size_value name.toList []).symm

/-- Where no fixed text is followed by another, parts mean together what each means. -/
theorem read_parts_iff {parts : List Part} (h : Alternates parts) :
    read (parts.flatMap renderPart) = some (parts.flatMap Part.items) ↔
      ∀ part ∈ parts, part.MeansItself := by
  induction parts with
  | nil => exact iff_of_true read_nil nofun
  | cons part rest ih =>
      rw [Alternates, List.isChain_cons] at h
      rw [List.forall_mem_cons, ← ih h.2]
      cases part with
      | fixed text =>
          exact read_fixed_iff (follows_render fun next first => h.1 next first rfl)
            (sizes_items rest)
      | valueOf name =>
          rw [List.flatMap_cons, List.flatMap_cons, renderPart, List.cons_append, List.cons_append,
            List.append_assoc]
          exact read_value_iff

theorem filterMap_name?_items (parts : List Part) :
    (parts.flatMap Part.items).filterMap Item.name? = parts.filterMap Part.name? := by
  induction parts with
  | nil => rfl
  | cons part rest ih =>
      rw [List.flatMap_cons, List.filterMap_append, ih]
      cases part with
      | fixed text =>
          have none : (Part.fixed text).items.filterMap Item.name? = [] := by
            rw [Part.items, List.filterMap_map]
            exact List.filterMap_eq_nil_iff.2 fun _ _ => rfl
          rw [none]
          rfl
      | valueOf name => rfl

theorem evaluate_items (value : List Nat) (parts : List Part) :
    evaluate value (parts.flatMap Part.items) = parts.flatMap (Part.string value) := by
  rw [evaluate, List.flatMap_assoc]
  congr 1
  funext part
  cases part with
  | fixed text =>
      rw [Part.items, List.flatMap_map]
      exact List.flatMap_singleton' _
  | valueOf name => exact List.append_nil value

theorem readsBack_iff_read {address : Address} :
    address.ReadsBack ↔
      read (address.parts.flatMap renderPart) = some (address.parts.flatMap Part.items) := by
  rw [ReadsBack, render, String.toList_ofList]
  constructor
  · rintro ⟨items, found, names, strings⟩
    rw [found, items_unique (names.trans (filterMap_name?_items _).symm) fun value =>
      (strings value).trans (evaluate_items value _).symm]
  · intro found
    exact ⟨_, found, filterMap_name?_items _, fun value => evaluate_items value _⟩

theorem alternates_around {resource : String} {before found : List Piece} {address : Address}
    (h : around resource before found = some address) : Alternates address.parts := by
  induction found generalizing before with
  | nil => cases h
  | cons piece rest ih =>
      rw [around] at h
      split at h
      · cases h
        dsimp only
        rw [fixedPart_eq, fixedPart_eq, fixedText, fixedText, Alternates]
        split
        all_goals split
        all_goals simp [Part.name?]
      · exact ih h

/-- In an address that a text describes, no fixed text is followed by another. -/
theorem alternates_of_parse {href resource : String} {address : Address}
    (h : (parse href resource).result = .ok address) : Alternates address.parts := by
  rw [result_parse] at h
  split at h
  · cases h
  cases found : around resource [] (pieces href.toList) with
  | none =>
      rw [found] at h
      cases h
      exact List.isChain_singleton _
  | some address' =>
      rw [found] at h
      cases h
      exact alternates_around found

/-- The address that a text describes reads back exactly if its fixed text has no backslash, no
carriage return and no opening sign of a substitution in it, and its parameter is named as
variables are.  `isName` takes more names than there are: outside ASCII it lets every character stand
in one, also the blanks and ends of lines that no variable has in its name. -/
theorem readsBack_iff {href resource : String} {address : Address}
    (h : (parse href resource).result = .ok address) :
    address.ReadsBack ↔
      (∀ text, .fixed text ∈ address.parts → Plain text.toList) ∧
        ∀ name, .valueOf name ∈ address.parts → isName name.toList = true := by
  rw [readsBack_iff_read, read_parts_iff (alternates_of_parse h)]
  constructor
  · intro all
    exact ⟨fun text => all (.fixed text), fun name => all (.valueOf name)⟩
  · rintro ⟨fixed, named⟩ part mem
    cases part with
    | fixed text => exact fixed text mem
    | valueOf name => exact named name mem

/-- An opening sign that stands for itself in an address reads as a substitution. -/
theorem not_readsBack_dollar :
    ∃ address, (parse "/files/$\x7bname\x7d" "file").result = .ok address ∧
      ¬ address.ReadsBack := by
  have parsed : (parse "/files/$\x7bname\x7d" "file").result =
      .ok { parts := [.fixed "/files/$\x7bname\x7d"], parameter := none } := by
    decide +kernel
  refine ⟨_, parsed, fun reads => ?_⟩
  have plain := ((readsBack_iff parsed).1 reads).1 _ (List.mem_singleton_self _)
  exact plain.substitution (by decide)

end HyperSchema.Address
