import HyperSchema.Proofs.Declaration.Reader
import HyperSchema.Proofs.Declaration.Recognition

/-!
# Grouping — first tokens and parentheses of printed types

What a reader makes of a type depends on where the type stands.  This file defines:

* `TypeExpr.pieces_opens`, the first token of a printed type;
* `TypeExpr.Reread`, `TypeExpr.Rechained` and `TypeExpr.Rereads`, what it is for a type to be read
  back from some pieces;
* `TypeExpr.Rereads.group`: with the printer's parentheses a type is read back in every place.

In front of brackets a type is not read to its end, so there the claim is about the loop over these.
-/

namespace HyperSchema

open Piece

/-! ## First tokens -/

theorem Piece.name_opens {head : Bool} {text : String}
    (h : Declaration.isReferenceName head text = true) :
    ∃ first others, Text.splitOn '.' text.toList = first :: others ∧
      Piece.name text = word (String.ofList first) ::
        others.flatMap (fun part => [mark '.', word (String.ofList part)]) ∧
      String.ofList first ∉ Declaration.reservedNames ∧
      (head = false → String.ofList first ≠ "keyof") := by
  unfold Declaration.isReferenceName at h
  unfold Piece.name
  split at h
  · cases h
  · rename_i first others hs
    simp only [Bool.and_eq_true, Bool.not_eq_eq_eq_not, Bool.not_true, Bool.or_eq_true,
      bne_iff_ne, List.contains_eq_mem, decide_eq_false_iff_not] at h
    refine ⟨first, others, hs, by rw [hs]; rfl, h.1.2, ?_⟩
    rintro rfl
    exact h.2.resolve_left Bool.false_ne_true

/-- Some pieces start with a token that opens a type. -/
def Piece.Opens (plain : Prop) (pieces : List Piece) : Prop :=
  ∃ lexeme spelling others, pieces = token lexeme spelling :: others ∧
    Parser.startsType lexeme = true ∧ (plain → lexeme ≠ .word "keyof")

theorem Piece.Opens.append {plain : Prop} {pieces : List Piece} (h : Piece.Opens plain pieces)
    (others : List Piece) : Piece.Opens plain (pieces ++ others) := by
  obtain ⟨lexeme, spelling, behind, rfl, starts, apart⟩ := h
  exact ⟨lexeme, spelling, behind ++ others, rfl, starts, apart⟩

theorem Piece.Opens.imp {plain plain' : Prop} {pieces : List Piece} (h : Piece.Opens plain pieces)
    (weaker : plain' → plain) : Piece.Opens plain' pieces := by
  obtain ⟨lexeme, spelling, behind, rfl, starts, apart⟩ := h
  exact ⟨lexeme, spelling, behind, rfl, starts, fun hp => apart (weaker hp)⟩

theorem Piece.Opens.tokens {plain : Prop} {pieces : List Piece} (h : Piece.Opens plain pieces)
    (here : Position) (rest : List Token) : Parser.OpensType (place here pieces ++ rest) := by
  obtain ⟨lexeme, spelling, behind, rfl, starts, -⟩ := h
  exact ⟨_, _, rfl, starts⟩

theorem Piece.Opens.eatWord {plain : Prop} {pieces : List Piece} (h : Piece.Opens plain pieces)
    (hp : plain) (here : Position) (rest : List Token) :
    Parser.eatWord "keyof" (place here pieces ++ rest) = none := by
  obtain ⟨lexeme, spelling, behind, rfl, -, apart⟩ := h
  refine Parser.eatWord_eq_none ?_
  rintro token ⟨⟩
  exact apart hp

theorem Piece.Opens.count_pos {plain : Prop} {pieces : List Piece} (h : Piece.Opens plain pieces) :
    0 < count pieces := by
  obtain ⟨lexeme, spelling, behind, rfl, -, -⟩ := h
  exact Nat.succ_pos _

theorem Piece.opens_mark {plain : Prop} {sign : Char}
    (h : Parser.startsType (.mark sign) = true) (others : List Piece) :
    Piece.Opens plain (mark sign :: others) :=
  ⟨_, _, others, rfl, h, fun _ => nofun⟩

theorem Piece.opens_intercalate {plain : Prop} {separator first : List Piece}
    (h : Piece.Opens plain first) (others : List (List Piece)) :
    Piece.Opens plain (separator.intercalate (first :: others)) := by
  cases others with
  | nil => rwa [List.intercalate_singleton]
  | cons second others =>
      rw [List.intercalate_cons_cons, List.append_assoc]
      exact h.append _

theorem Piece.opens_group {plain : Prop} {wanted : Nat} {t : TypeExpr} {pieces : List Piece}
    (h : wanted ≤ t.strength → Piece.Opens plain pieces) :
    Piece.Opens plain (group wanted t pieces) := by
  unfold group
  split
  · exact opens_mark rfl _
  · exact h (by omega)

theorem Piece.opens_several {plain : Prop} {level wanted : Nat} {separator : List Piece}
    {ts : List TypeExpr} (nonempty : ts ≠ [])
    (each : ∀ t ∈ ts, Piece.Opens plain (t.pieces level)) :
    Piece.Opens plain (separator.intercalate (ts.map (TypeExpr.grouped level wanted))) := by
  cases ts with
  | nil => exact absurd rfl nonempty
  | cons first others =>
      rw [List.map_cons]
      exact opens_intercalate (opens_group fun _ => each first List.mem_cons_self) _

/-- A type opens with a token that is no operator, unless it is a `keyof` type itself or its
leftmost name may be `keyof`. -/
theorem TypeExpr.pieces_opens {t : TypeExpr} {head : Bool} (legible : t.isLegible head = true)
    (level : Nat) : Piece.Opens (head = false ∧ 4 ≤ t.strength) (t.pieces level) := by
  -- Only what stands leftmost counts.  A type weaker than 4 promises nothing about `keyof`, so what
  -- stands leftmost in it may promise more.
  induction t using TypeExpr.induct generalizing head with
  | keyword word =>
      refine ⟨_, _, [], rfl, rfl, ?_⟩
      cases word <;> exact fun _ => by decide
  | string text => exact ⟨_, _, [], rfl, rfl, fun _ => nofun⟩
  | number spelling =>
      rw [TypeExpr.pieces, Piece.number]
      split
      · exact opens_mark rfl _
      · exact ⟨_, _, [], rfl, rfl, fun _ => nofun⟩
  | boolean value =>
      refine ⟨_, _, [], rfl, rfl, ?_⟩
      cases value <;> exact fun _ => by decide
  | reference name args ih =>
      simp only [TypeExpr.isLegible, Bool.and_eq_true] at legible
      obtain ⟨first, others, -, named, -, apart⟩ := Piece.name_opens legible.1
      have opens : Piece.Opens (head = false ∧ 4 ≤ (TypeExpr.reference name args).strength)
          (Piece.name name) := by
        rw [named]
        refine ⟨_, _, _, rfl, rfl, ?_⟩
        rintro ⟨hh, -⟩ he
        exact apart hh (by simpa using he)
      cases args with
      | nil => exact opens
      | cons first others =>
          simp only [TypeExpr.pieces, List.append_assoc]
          exact opens.append _
  | array element ih =>
      rw [TypeExpr.pieces]
      refine Piece.Opens.append (opens_group ?_) _
      intro strong
      refine (ih legible).imp ?_
      rintro ⟨rfl, -⟩
      exact ⟨rfl, strong⟩
  | tuple items ih inner =>
      rw [TypeExpr.pieces]
      exact opens_mark rfl _
  | rest element => cases legible
  | union alternatives ih =>
      simp only [TypeExpr.isLegible, TypeExpr.areLegible_eq_all, Bool.and_eq_true,
        decide_eq_true_eq, List.all_eq_true] at legible
      obtain ⟨length, each⟩ := legible
      rw [TypeExpr.pieces, TypeExpr.piecesAll_eq_map]
      refine opens_several (List.ne_nil_of_length_pos (by omega)) ?_
      intro t ht
      refine (ih t ht (each t ht)).imp ?_
      rintro ⟨-, weak⟩
      exact absurd weak (by simp [TypeExpr.strength])
  | intersection parts ih =>
      simp only [TypeExpr.isLegible, TypeExpr.areLegible_eq_all, Bool.and_eq_true,
        decide_eq_true_eq, List.all_eq_true] at legible
      obtain ⟨length, each⟩ := legible
      rw [TypeExpr.pieces, TypeExpr.piecesAll_eq_map]
      refine opens_several (List.ne_nil_of_length_pos (by omega)) ?_
      intro t ht
      refine (ih t ht (each t ht)).imp ?_
      rintro ⟨-, weak⟩
      exact absurd weak (by simp [TypeExpr.strength])
  | object members ih =>
      cases members with
      | nil => exact opens_mark rfl _
      | cons first others => exact opens_mark rfl _
  | keyOf operand ih =>
      refine ⟨_, _, _, rfl, rfl, ?_⟩
      rintro ⟨-, weak⟩
      exact absurd weak (by simp [TypeExpr.strength])
  | conditional check bound whenTrue whenFalse ihc ihb iht ihf =>
      simp only [TypeExpr.isLegible, Bool.and_eq_true] at legible
      simp only [TypeExpr.pieces, List.append_assoc]
      refine Piece.Opens.append (opens_group fun _ => ?_) _
      refine (ihc legible.1.1.1).imp ?_
      rintro ⟨-, weak⟩
      exact absurd weak (by simp [TypeExpr.strength])
  | access object index iho ihi =>
      simp only [TypeExpr.isLegible, Bool.and_eq_true] at legible
      simp only [TypeExpr.pieces, List.append_assoc]
      refine Piece.Opens.append (opens_group ?_) _
      intro strong
      refine (iho legible.1).imp ?_
      rintro ⟨rfl, -⟩
      exact ⟨rfl, strong⟩

/-- Where the leftmost name is not `keyof`, neither is the first word, unless the type is weak. -/
theorem TypeExpr.pieces_opens_plain {t : TypeExpr} (legible : t.isLegible false = true)
    (level : Nat) : Piece.Opens (4 ≤ t.strength) (t.pieces level) :=
  (pieces_opens legible level).imp fun strong => ⟨rfl, strong⟩

/-! ## Reading back -/

namespace TypeExpr

/-- The reader of a strength reads a type back from some pieces, whatever follows that does not
continue it. -/
def Reread (strength : Nat) (t : TypeExpr) (pieces : List Piece) : Prop :=
  ∀ here rest, Parser.Delimits strength rest →
    Parser.Yields strength (8 * count pieces) (place here pieces ++ rest)
      (t.mapDocs Declaration.reread) rest

/-- A type is read back from some pieces in front of brackets that may follow. -/
def Rechained (t : TypeExpr) (pieces : List Piece) : Prop :=
  ∀ here rest, Parser.Delimits 5 rest →
    Parser.Chains (8 * count pieces) (place here pieces ++ rest) (t.mapDocs Declaration.reread) rest

/-- A type is read back by the reader of its own strength. -/
def Rereads (t : TypeExpr) (pieces : List Piece) : Prop :=
  (t.strength < 4 → Reread t.strength t pieces) ∧ (4 ≤ t.strength → Rechained t pieces)

variable {t : TypeExpr} {pieces : List Piece} {head : Bool} {level wanted : Nat}

theorem Rereads.of_primary {plain : Prop} (strong : t.strength = 5) (opens : Opens plain pieces)
    (h : ∀ here rest, Parser.Delimits 5 rest → ∀ fuel, 8 * count pieces ≤ fuel + 1 →
      Parser.primary (fuel + 1) (place here pieces ++ rest) =
        .ok (t.mapDocs Declaration.reread, rest)) : Rereads t pieces := by
  -- A piece costs eight steps, which is more than the ladder of readers has rungs.
  have positive := opens.count_pos
  refine ⟨fun weak => by omega, fun _ here rest stop => ?_⟩
  refine Parser.chains_of_primary ?_ (by omega)
  intro fuel hf
  obtain ⟨fuel, rfl⟩ : ∃ n, fuel = n + 1 := ⟨fuel - 1, by omega⟩
  exact h here rest stop fuel hf

theorem Rechained.reread (h : Rechained t pieces) : Reread 4 t pieces :=
  fun here rest stop => (h here rest (stop.mono (by omega))).yields stop

theorem Reread.lower {strength : Nat} {plain : Prop} (h : Reread strength t pieces)
    (hw : wanted ≤ strength) (hs : strength ≤ 4) (opens : Opens plain pieces)
    (hp : wanted ≤ 3 → strength = 4 → plain) : Reread wanted t pieces := by
  intro here rest stop
  have positive := opens.count_pos
  refine (h here rest (stop.mono hw)).lower hw hs (opens.tokens here rest) ?_ stop (by omega)
  intro weak strong
  exact opens.eatWord (hp weak strong) here rest

/-- A type is read back by every reader below that of its own strength. -/
theorem Rereads.reread (h : Rereads t pieces) (opens : Opens (4 ≤ t.strength) pieces)
    (hw : wanted ≤ t.strength) (hs : wanted ≤ 4) : Reread wanted t pieces := by
  rcases Nat.lt_or_ge t.strength 4 with weak | strong
  · exact (h.1 weak).lower hw (by omega) opens fun _ he => by omega
  · exact (h.2 strong).reread.lower hs (Nat.le_refl 4) opens fun _ _ => strong

theorem rechained_parentheses (h : Reread 0 t pieces) :
    Rechained t (mark '(' :: (pieces ++ [mark ')'])) := by
  intro here rest _
  refine Parser.chains_of_primary ?_ (by simp)
  intro fuel hf
  simp only [count_mark, count_append, count_nil] at hf
  obtain ⟨fuel, rfl⟩ : ∃ n, fuel = n + 1 := ⟨fuel - 1, by omega⟩
  simp only [place_mark, place_append, place_nil, List.cons_append, List.append_assoc,
    List.nil_append]
  exact Parser.primary_group (h _ _ (.mark (by decide) _) fuel (by omega))

/-- Parentheses are read back where the printer puts them. -/
theorem Rereads.group (h : Rereads t pieces) (opens : Opens (4 ≤ t.strength) pieces)
    (hw : wanted ≤ 4) : Reread wanted t (group wanted t pieces) := by
  unfold Piece.group
  split
  · -- Inside parentheses any type can stand, and outside they make it as strong as a name.
    have inner : Reread 0 t pieces := h.reread opens (by omega) (by omega)
    exact (rechained_parentheses inner).reread.lower hw (Nat.le_refl 4)
      (opens_mark rfl _) fun _ _ => trivial
  · exact h.reread opens (by omega) hw

theorem Rereads.groupChain {plain : Prop} (h : Rereads t pieces) (opens : Opens plain pieces) :
    Rechained t (Piece.group 4 t pieces) := by
  unfold Piece.group
  split
  · have weak : Opens (4 ≤ t.strength) pieces := opens.imp fun strong => absurd strong (by omega)
    exact rechained_parentheses (h.reread weak (by omega) (by omega))
  · exact h.2 (by omega)

end TypeExpr

end HyperSchema
