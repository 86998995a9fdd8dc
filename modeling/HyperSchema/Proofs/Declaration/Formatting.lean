import HyperSchema.Declaration.Generic
import HyperSchema.Proofs.Declaration.Image
import HyperSchema.Proofs.Declaration.Rereading
import HyperSchema.Proofs.Outcome

/-!
# Formatting — a file printed from what was read of it

What is read of a file can be said, but a base or a bound that needs parentheses is printed without
them.  This file shows that nothing else is lost:

* `TypeExpr.pieces_start`: a printed type that starts with a parenthesis starts with a part of
  itself;
* `Parser.indexed_strong` and `Parser.typeParam_grouped`: a base and a parameter that are read back
  as they were need no parentheses;
* `Parser.good_of_read_separated`, which carries this over to lists;
* `Declaration.parse_print_iff_isGrouped`: a formatted file is read back as it was exactly if no
  base and no bound in it needs parentheses.
-/

namespace HyperSchema

open Piece

/-! ## Documentation -/

theorem TypeExpr.Said.mapDocs_reread {t : TypeExpr} {head : Bool} (said : t.Said head) :
    t.mapDocs Declaration.reread = t :=
  mapDocs_eq_self fun text ht => Declaration.reread_eq_self (said.docs text ht)

theorem TypeParam.Said.mapDocs_reread {param : TypeParam} (said : param.Said) :
    param.mapDocs Declaration.reread = param :=
  mapDocs_eq_self fun text ht => Declaration.reread_eq_self (said.docs text ht)

theorem Declaration.Said.mapDocs_reread {declaration : Declaration} (said : declaration.Said) :
    declaration.mapDocs reread = declaration :=
  mapDocs_eq_self fun text ht => reread_eq_self (said.docs text ht)

/-! ## The first token of a type -/

/-- Some pieces start with a token that is no parenthesis. -/
def Piece.StartsPlain (pieces : List Piece) : Prop :=
  ∃ lexeme spelling others, pieces = token lexeme spelling :: others ∧ lexeme ≠ .mark '('

/-- Some pieces start with a part of a type in parentheses. -/
def TypeExpr.StartsGroup (t : TypeExpr) (level : Nat) (pieces : List Piece) : Prop :=
  ∃ (part : TypeExpr) (more : List Piece),
    pieces = mark '(' :: (part.pieces level ++ mark ')' :: more) ∧
    part.isLegible false = true ∧ ∀ text ∈ part.docs, text ∈ t.docs

namespace TypeExpr

variable {level : Nat}

theorem starts_group {t part : TypeExpr} {head : Bool} {wanted : Nat}
    (legible : part.isLegible head = true) (plain : part.strength < wanted → head = false)
    (docs : ∀ text ∈ part.docs, text ∈ t.docs)
    (h : StartsPlain (part.pieces level) ∨ part.StartsGroup level (part.pieces level))
    (more : List Piece) :
    StartsPlain (group wanted part (part.pieces level) ++ more) ∨
      t.StartsGroup level (group wanted part (part.pieces level) ++ more) := by
  unfold group
  split
  · -- What stands in the parentheses is the part itself.
    rename_i weak
    rw [plain weak] at legible
    exact .inr ⟨part, more, by simp, legible, docs⟩
  · rcases h with ⟨lexeme, spelling, others, h, apart⟩ | ⟨inner, others, h, legible, inside⟩
    · exact .inl ⟨lexeme, spelling, others ++ more, by simp [h], apart⟩
    · refine .inr ⟨inner, others ++ more, by simp [h], legible, ?_⟩
      exact fun text ht => docs text (inside text ht)

/-- Types with a separator between them start with the first. -/
theorem starts_several {t first : TypeExpr} {others : List TypeExpr} {wanted : Nat}
    {separator : List Piece} (legible : first.isLegible false = true)
    (docs : ∀ text ∈ first.docs, text ∈ t.docs)
    (h : StartsPlain (first.pieces level) ∨ first.StartsGroup level (first.pieces level)) :
    StartsPlain (separator.intercalate ((first :: others).map (grouped level wanted))) ∨
      t.StartsGroup level
        (separator.intercalate ((first :: others).map (grouped level wanted))) := by
  rw [List.map_cons, intercalate_eq_flatMap]
  exact starts_group legible (fun _ => rfl) docs h _

theorem pieces_start {t : TypeExpr} {head : Bool} (legible : t.isLegible head = true)
    (level : Nat) :
    StartsPlain (t.pieces level) ∨ t.StartsGroup level (t.pieces level) := by
  -- The induction goes to what stands leftmost; the other parts do not matter.
  induction t using TypeExpr.induct generalizing head with
  | keyword word => exact .inl ⟨_, _, _, rfl, by simp⟩
  | string text => exact .inl ⟨_, _, _, rfl, by simp⟩
  | boolean value => exact .inl ⟨_, _, _, rfl, by simp⟩
  | rest element _ => exact .inl ⟨_, _, _, rfl, by simp⟩
  | keyOf operand _ => exact .inl ⟨_, _, _, rfl, by simp⟩
  | tuple items _ _ => exact .inl ⟨_, _, _, rfl, by decide⟩
  | number spelling =>
      rw [pieces, Piece.number]
      split
      · exact .inl ⟨_, _, _, rfl, by decide⟩
      · exact .inl ⟨_, _, _, rfl, by simp⟩
  | reference name args _ =>
      rw [isLegible, Bool.and_eq_true] at legible
      rcases Piece.name_opens legible.1 with ⟨first, others, -, named, -, -⟩
      cases args with
      | nil => exact .inl ⟨_, _, _, named, by simp⟩
      | cons arg args =>
          rw [pieces, named]
          exact .inl ⟨_, _, _, rfl, by simp⟩
  | object members _ =>
      cases members with
      | nil => exact .inl ⟨_, _, _, rfl, by decide⟩
      | cons first others => exact .inl ⟨_, _, _, rfl, by decide⟩
  | array element ih =>
      rw [isLegible] at legible
      rw [pieces]
      refine starts_group legible ?_ (by simp) (ih legible) _
      intro weak
      simp [Nat.not_le_of_lt weak]
  | access object index iho _ =>
      rw [isLegible, Bool.and_eq_true] at legible
      rw [pieces, List.append_assoc, List.append_assoc]
      refine starts_group legible.1 ?_ (by simp +contextual) (iho legible.1) _
      intro weak
      simp [Nat.not_le_of_lt weak]
  | union alternatives ih =>
      cases alternatives with
      | nil => cases legible
      | cons first others =>
          simp only [isLegible, areLegible_eq_all, Bool.and_eq_true, List.all_cons] at legible
          rw [pieces, piecesAll_eq_map]
          exact starts_several legible.2.1 (by simp +contextual)
            (ih first List.mem_cons_self legible.2.1)
  | intersection parts ih =>
      cases parts with
      | nil => cases legible
      | cons first others =>
          simp only [isLegible, areLegible_eq_all, Bool.and_eq_true, List.all_cons] at legible
          rw [pieces, piecesAll_eq_map]
          exact starts_several legible.2.1 (by simp +contextual)
            (ih first List.mem_cons_self legible.2.1)
  | conditional check bound whenTrue whenFalse ihc _ _ _ =>
      simp only [isLegible, Bool.and_eq_true] at legible
      simp only [pieces, List.append_assoc]
      exact starts_group legible.1.1.1 (fun _ => rfl) (by simp +contextual) (ihc legible.1.1.1) _

end TypeExpr

/-! ## Bases -/

namespace Parser

variable {fuel : Nat} {tokens rest : List Token} {t : TypeExpr}

/-- Brackets behind a type leave it as it is or make an array or access of it. -/
theorem indices_strong {base : TypeExpr} (h : indices fuel base tokens = .ok (t, rest)) :
    t = base ∨ 4 ≤ t.strength := by
  induction fuel generalizing base tokens with
  | zero => cases h
  | succ fuel ih =>
      rw [indices] at h
      split at h
      · cases h
        exact .inl rfl
      · split at h
        · rcases ih h with rfl | strong
          · exact .inr (Nat.le_refl 4)
          · exact .inr strong
        · rcases ok_of_bind h with ⟨index, -, h⟩
          rcases ok_of_bind h with ⟨behind, -, h⟩
          rcases ih h with rfl | strong
          · exact .inr (Nat.le_refl 4)
          · exact .inr strong

/-- Where no operator can stand, one that is found stood in parentheses. -/
theorem primary_strong (h : primary fuel tokens = .ok (t, rest)) :
    4 ≤ t.strength ∨ ∃ start line inner left behind, tokens = ⟨.mark '(', start, line⟩ :: inner ∧
      fuel = left + 1 ∧ type left inner = .ok (t, behind) := by
  cases fuel with
  | zero => cases h
  | succ fuel =>
      cases tokens with
      | nil => cases h
      | cons token others =>
          rcases token with ⟨lexeme, start, line⟩
          unfold primary at h
          dsimp only at h
          -- Parentheses leave the type inside as it is; whatever else opens a primary is strong.
          split at h
          · rcases ok_of_bind h with ⟨inner, read, h⟩
            rcases ok_of_bind h with ⟨behind, -, h⟩
            cases h
            exact .inr ⟨_, _, _, _, _, rfl, rfl, read⟩
          · rcases ok_of_bind h with ⟨found, -, h⟩
            cases h
            exact .inl (Nat.le_succ 4)
          · rcases ok_of_bind h with ⟨items, -, h⟩
            cases h
            exact .inl (Nat.le_succ 4)
          · split at h
            · cases h
              exact .inl (Nat.le_succ 4)
            · cases h
          · cases h
            exact .inl (Nat.le_succ 4)
          · cases h
            exact .inl (Nat.le_succ 4)
          · split at h
            · rename_i plain
              cases h
              rcases plainWord?_cases plain with ⟨keyword, rfl⟩ | ⟨value, rfl⟩
              · exact .inl (Nat.le_succ 4)
              · exact .inl (Nat.le_succ 4)
            · rcases ok_of_bind h with ⟨name, -, h⟩
              split at h
              · cases h
                exact .inl (Nat.le_succ 4)
              · rcases ok_of_bind h with ⟨args, -, h⟩
                cases h
                exact .inl (Nat.le_succ 4)
          · cases h

theorem indexed_weak (h : indexed fuel tokens = .ok (t, rest)) (weak : t.strength < 4) :
    ∃ start line inner left behind, tokens = ⟨.mark '(', start, line⟩ :: inner ∧
      fuel = left + 2 ∧ type left inner = .ok (t, behind) := by
  cases fuel with
  | zero => cases h
  | succ fuel =>
      rw [indexed] at h
      rcases ok_of_bind h with ⟨⟨base, behind⟩, read, h⟩
      dsimp only at h
      rcases indices_strong h with rfl | strong
      · rcases primary_strong read with
          strong | ⟨start, line, inner, left, behind, opened, spent, found⟩
        · omega
        · exact ⟨start, line, inner, left, behind, opened, congrArg (· + 1) spent, found⟩
      · omega

/-- A base that is read back as it was needs no parentheses: else what is read is a part of it. -/
theorem indexed_strong {head : Bool} {here : Position} {behind : List Token} (said : t.Said head)
    (enough : 8 * count (t.pieces 0) ≤ fuel)
    (h : indexed fuel (place here (t.pieces 0) ++ rest) = .ok (t, behind)) : 4 ≤ t.strength := by
  rcases Nat.lt_or_ge t.strength 4 with weak | strong
  · rcases indexed_weak h weak with ⟨start, line, inner, left, behind, opened, rfl, read⟩
    rcases TypeExpr.pieces_start said.legible 0 with
      ⟨lexeme, spelling, others, pieces, apart⟩ | ⟨part, more, pieces, legible, docs⟩
    · rw [pieces, place_token, List.cons_append] at opened
      cases opened
      exact absurd rfl apart
    · simp only [pieces, place_mark, place_append, List.cons_append, List.append_assoc] at opened
      simp only [pieces, count_mark, count_append] at enough
      cases opened
      have same : part.mapDocs Declaration.reread = part := by
        refine TypeExpr.mapDocs_eq_self ?_
        exact fun text ht => Declaration.reread_eq_self (said.docs text (docs text ht))
      have found : ∀ (here start : Position) (line : Nat) (rest : List Token),
          type left (place here (part.pieces 0) ++ ⟨.mark ')', start, line⟩ :: rest) =
            .ok (part, ⟨.mark ')', start, line⟩ :: rest) := by
        intro here start line rest
        have closed : Delimits 0 (⟨.mark ')', start, line⟩ :: rest) := .mark (by decide) rest
        have read := TypeExpr.reread_free legible 0 here _ closed left (by omega)
        rwa [same] at read
      -- So the type would be a part of itself.
      rw [found] at read
      cases read
      have longer := congrArg count pieces
      simp only [count_mark, count_append] at longer
      omega
  · exact strong

/-! ## Bounds -/

/-- A parameter that is read back as it was has a bound without `extends`: else what is read as its
bound is what stands in front of the `extends`. -/
theorem typeParam_grouped {param : TypeParam} (said : param.Said) {here : Position}
    {behind : List Token} (enough : 8 * count param.pieces + 5 ≤ fuel)
    (h : typeParam fuel (place here param.pieces ++ rest) = .ok (param, behind)) :
    param.isGrouped = true := by
  rcases param with ⟨name, bound, default⟩
  cases bound with
  | none => rfl
  | some bound =>
      cases bound with
      | conditional check bound whenTrue whenFalse =>
          have legible := said.legible
          simp only [TypeParam.isLegible, Option.all_some, TypeExpr.isLegible, Bool.and_eq_true]
            at legible
          have hc : check.isLegible false = true := legible.1.2.1.1.1
          have same : check.mapDocs Declaration.reread = check := by
            refine TypeExpr.mapDocs_eq_self ?_
            intro text ht
            refine Declaration.reread_eq_self (said.docs text ?_)
            simp [TypeParam.docs, ht]
          simp only [TypeParam.pieces, TypeExpr.optionalPieces, TypeExpr.pieces, count_append,
            count_word, count_gap, count_nil, List.cons_append, List.nil_append] at enough
          simp only [TypeParam.pieces, TypeExpr.optionalPieces, TypeExpr.pieces, place_append,
            place_word, place_gap, List.append_assoc, List.cons_append, List.nil_append] at h
          unfold typeParam at h
          rcases ok_of_bind h with ⟨found, read, h⟩
          cases read
          dsimp only at h
          rcases ok_of_bind h with ⟨⟨found, after⟩, read, h⟩
          rcases ok_of_bind h with ⟨⟨default', after'⟩, -, h⟩
          cases h
          -- The reader of bounds knows no `extends`, so it stops in front of the one that is printed.
          rw [eatWord_word] at read
          rcases ok_of_bind read with ⟨⟨found, after⟩, read, h⟩
          cases h
          have front : ∀ (here start : Position) (line : Nat) (rest : List Token),
              union fuel (place here (group 1 check (check.pieces 0)) ++
                ⟨.word "extends", start, line⟩ :: rest) =
                  .ok (check, ⟨.word "extends", start, line⟩ :: rest) := by
            intro here start line rest
            have inner : check.Reread 1 (group 1 check (check.pieces 0)) :=
              (TypeExpr.rereads hc).group (TypeExpr.pieces_opens_plain hc 0) (by decide)
            have stop : Delimits 1 (⟨.word "extends", start, line⟩ :: rest) :=
              .word (by decide) rest
            have read := inner here _ stop fuel (by omega)
            rwa [same] at read
          rw [front] at read
          cases read
      | _ => rfl

/-! ## Lists -/

/-- If a list that is read back as it was shows something of its first part, and what is left is
read back as it was, then it shows that of all parts. -/
theorem good_of_read_separated {α : Type}
    {read : Nat → List Token → Except Failure (List α × List Token)}
    {pieces : α → List Piece} {good : α → Prop} {parts : List α} {ending behind : List Token}
    (last : ∀ a ∈ parts, ∀ here fuel, 8 * (count (pieces a) + 1) ≤ fuel →
      read fuel (place here (pieces a) ++ ending) = .ok ([a], behind) → good a)
    (more : ∀ a ∈ parts, ∀ here start line fuel next others, 8 * (count (pieces a) + 1) ≤ fuel + 1 →
      read (fuel + 1) (place here (pieces a) ++ ⟨.mark ',', start, line⟩ :: next) =
        .ok (a :: others, behind) → good a ∧ read fuel next = .ok (others, behind))
    {here : Position} (enough : 8 * (count (comma.intercalate (parts.map pieces)) + 1) ≤ fuel)
    (h : read fuel (place here (comma.intercalate (parts.map pieces)) ++ ending) =
      .ok (parts, behind)) : ∀ a ∈ parts, good a := by
  induction parts generalizing here fuel with
  | nil => exact nofun
  | cons first others ih =>
      cases others with
      | nil =>
          simp only [List.map_cons, List.map_nil, List.intercalate_singleton] at enough h
          exact List.forall_mem_singleton.2 (last first List.mem_cons_self here fuel enough h)
      | cons second others =>
          rw [List.map_cons, List.map_cons, List.intercalate_cons_cons, ← List.map_cons] at enough h
          simp only [comma, count_append, count_mark, count_gap, count_nil] at enough
          simp only [comma, place_append, place_mark, place_gap, List.append_assoc,
            List.cons_append, List.nil_append] at h
          rcases Nat.exists_eq_add_of_lt (show 0 < fuel by omega) with ⟨fuel, rfl⟩
          rw [Nat.zero_add] at enough h
          -- `more` gives the tail the form that the induction hypothesis asks for.
          have step := more first List.mem_cons_self _ _ _ fuel _ _ (by omega) h
          refine List.forall_mem_cons.2 ⟨step.1, ?_⟩
          refine ih (fun a ha => last a (List.mem_cons_of_mem first ha))
            (fun a ha => more a (List.mem_cons_of_mem first ha)) ?_ step.2
          simp only [comma]
          omega

theorem bases_first {first : TypeExpr} {others : List TypeExpr} {behind : List Token}
    (h : bases (fuel + 1) tokens = .ok (first :: others, behind)) :
    ∃ after, indexed fuel tokens = .ok (first, after) ∧
      ∀ next, eatMark ',' after = some next → bases fuel next = .ok (others, behind) := by
  rw [bases] at h
  rcases ok_of_bind h with ⟨⟨found, after⟩, read, h⟩
  dsimp only at h
  split at h
  · rename_i next eaten
    rcases ok_of_bind h with ⟨⟨more, left⟩, tail, h⟩
    cases h
    refine ⟨after, read, ?_⟩
    intro next' eaten'
    rw [eaten] at eaten'
    cases eaten'
    exact tail
  · rename_i absent
    cases h
    refine ⟨_, read, ?_⟩
    intro next eaten
    rw [absent] at eaten
    cases eaten

theorem typeParamList_first {first : TypeParam} {others : List TypeParam} {behind : List Token}
    (opened : eatMark '>' tokens = none)
    (h : typeParamList (fuel + 1) tokens = .ok (first :: others, behind)) :
    ∃ after, typeParam fuel tokens = .ok (first, after) ∧
      ∀ next, eatMark ',' after = some next → typeParamList fuel next = .ok (others, behind) := by
  rw [typeParamList, opened] at h
  rcases ok_of_bind h with ⟨⟨found, after⟩, read, h⟩
  dsimp only at h
  split at h
  · rename_i next eaten
    rcases ok_of_bind h with ⟨⟨more, left⟩, tail, h⟩
    cases h
    refine ⟨after, read, ?_⟩
    intro next' eaten'
    rw [eaten] at eaten'
    cases eaten'
    exact tail
  · rename_i absent
    rcases ok_of_bind h with ⟨left, -, h⟩
    cases h
    refine ⟨_, read, ?_⟩
    intro next eaten
    rw [absent] at eaten
    cases eaten

theorem bases_grouped {extended : List TypeExpr} (said : ∀ t ∈ extended, t.Said true)
    {here : Position} {behind : List Token}
    (enough : 8 * (count (comma.intercalate (extended.map (TypeExpr.grouped 0 0))) + 1) ≤ fuel)
    (h : bases fuel (place here (comma.intercalate (extended.map (TypeExpr.grouped 0 0))) ++ rest) =
      .ok (extended, behind)) : ∀ t ∈ extended, 4 ≤ t.strength := by
  have strong : ∀ t ∈ extended, ∀ here fuel others rest,
      8 * (count (t.grouped 0 0) + 1) ≤ fuel + 1 →
      bases (fuel + 1) (place here (t.grouped 0 0) ++ rest) = .ok (t :: others, behind) →
        4 ≤ t.strength ∧ ∃ after,
          indexed fuel (place here (t.grouped 0 0) ++ rest) = .ok (t, after) ∧
          ∀ next, eatMark ',' after = some next → bases fuel next = .ok (others, behind) := by
    intro t ht here fuel others rest hf h
    rcases bases_first h with ⟨after, read, tail⟩
    refine ⟨?_, after, read, tail⟩
    rw [TypeExpr.grouped_zero] at hf read
    exact indexed_strong (said t ht) (by omega) read
  refine good_of_read_separated ?_ ?_ enough h
  · intro t ht here fuel hf h
    rcases Nat.exists_eq_add_of_lt (show 0 < fuel by omega) with ⟨fuel, rfl⟩
    rw [Nat.zero_add] at hf h
    exact (strong t ht here fuel [] _ hf h).1
  · intro t ht here start line fuel next others hf h
    rcases strong t ht here fuel others _ hf h with ⟨ht4, after, read, tail⟩
    -- The base is read up to the comma, so the list goes on behind it.
    refine ⟨ht4, tail next ?_⟩
    have reread : t.Reread 4 (t.grouped 0 0) := by
      rw [TypeExpr.grouped_zero]
      exact ((TypeExpr.rereads (said t ht).legible).2 ht4).reread
    have whole := reread here (⟨.mark ',', start, line⟩ :: next) (.mark (by decide) _) fuel
      (by omega)
    have whole : indexed fuel _ = _ := whole
    rw [read, (said t ht).mapDocs_reread] at whole
    cases whole
    rfl

theorem typeParams_grouped {params : List TypeParam} (said : ∀ p ∈ params, p.Said)
    {here : Position} {behind : List Token}
    (enough : 8 * count (Declaration.paramsPieces params) ≤ fuel)
    (h : typeParams fuel (place here (Declaration.paramsPieces params) ++ rest) =
      .ok (params, behind)) : ∀ p ∈ params, p.isGrouped = true := by
  cases params with
  | nil => exact nofun
  | cons first others =>
      simp only [Declaration.paramsPieces, count_mark, count_append, count_nil] at enough
      simp only [Declaration.paramsPieces, place_mark, place_append, place_nil, List.cons_append,
        List.append_assoc, List.nil_append, typeParams, eatMark_mark] at h
      show ∀ p ∈ first :: others, (fun p : TypeParam => p.isGrouped = true) p
      refine good_of_read_separated ?_ ?_ (by omega) h
      · intro p hp here fuel hf h
        rcases Nat.exists_eq_add_of_lt (show 0 < fuel by omega) with ⟨fuel, rfl⟩
        rw [Nat.zero_add] at hf h
        rcases typeParamList_first rfl h with ⟨after, read, -⟩
        exact typeParam_grouped (said p hp) (by omega) read
      · intro p hp here start line fuel next others hf h
        rcases typeParamList_first rfl h with ⟨after, read, tail⟩
        -- What is behind the parameter is known once the parameter is known to be read back.
        have ungrouped := typeParam_grouped (said p hp) (by omega) read
        refine ⟨ungrouped, tail next ?_⟩
        have stop : Delimits 0 (⟨.mark ',', start, line⟩ :: next) := .mark (by decide) _
        have whole : typeParam fuel (place here p.pieces ++ ⟨.mark ',', start, line⟩ :: next) = _ :=
          TypeParam.reread (said p hp).legible ungrouped stop rfl (by omega)
        rw [read, (said p hp).mapDocs_reread] at whole
        cases whole
        rfl

/-! ## Declarations -/

theorem interfaceBody_parts {doc doc' : Option String} {isExported isExported' : Bool}
    {name name' : String} {params : List TypeParam} {extended : List TypeExpr}
    {members : List Member} {start : Position} {line : Nat} {behind : List Token}
    (h : interfaceBody fuel doc isExported (⟨.word name, start, line⟩ :: tokens) =
      .ok (⟨name', doc', params, .interface extended members, isExported'⟩, behind)) :
    ∃ after, typeParams fuel tokens = .ok (params, after) ∧
      ∀ next, eatWord "extends" after = some next →
        ∃ left, bases fuel next = .ok (extended, left) := by
  unfold interfaceBody at h
  rcases ok_of_bind h with ⟨found, read, h⟩
  cases read
  rcases ok_of_bind h with ⟨⟨found, after⟩, read, h⟩
  -- With bases or without, the declaration is put together behind the members.
  have ending : ∀ {extended' : List TypeExpr} {left : List Token},
      (do
        let rest ← expectMark '{' left
        let inner ← Parser.members fuel rest
        .ok (Declaration.mk name doc found (.interface extended' inner.1) isExported, inner.2)) =
        .ok (⟨name', doc', params, .interface extended members, isExported'⟩, behind) →
          found = params ∧ extended' = extended := by
    intro extended' left h
    rcases ok_of_bind h with ⟨inside, -, h⟩
    rcases ok_of_bind h with ⟨⟨inner, left⟩, -, h⟩
    cases h
    exact ⟨rfl, rfl⟩
  dsimp only at h
  split at h
  · rename_i next eaten
    rcases ok_of_bind h with ⟨⟨extended', left⟩, more, h⟩
    rcases ending h with ⟨rfl, rfl⟩
    refine ⟨after, read, ?_⟩
    intro next' eaten'
    rw [eaten] at eaten'
    cases eaten'
    exact ⟨left, more⟩
  · rename_i absent
    rcases ending h with ⟨rfl, -⟩
    refine ⟨after, read, ?_⟩
    intro next eaten
    rw [absent] at eaten
    cases eaten

theorem aliasBody_parts {doc : Option String} {isExported : Bool} {name : String}
    {found : Declaration} {start : Position} {line : Nat} {behind : List Token}
    (h : aliasBody fuel doc isExported (⟨.word name, start, line⟩ :: tokens) =
      .ok (found, behind)) :
    ∃ after, typeParams fuel tokens = .ok (found.params, after) := by
  unfold aliasBody at h
  rcases ok_of_bind h with ⟨first, read, h⟩
  cases read
  rcases ok_of_bind h with ⟨⟨params, after⟩, read, h⟩
  rcases ok_of_bind h with ⟨next, -, h⟩
  rcases ok_of_bind h with ⟨⟨type, left⟩, -, h⟩
  cases h
  exact ⟨after, read⟩

end Parser

/-- A table without rules for some declarations leaves them as they are. -/
theorem RuleTable.applyAll_eq_self {table : RuleTable} {declarations : List Declaration}
    (unruled : ∀ d ∈ declarations, table.rule? d.name = none) :
    table.applyAll declarations = declarations := by
  induction declarations with
  | nil => rfl
  | cons first others ih =>
      have kept : table.applyTo? first = some first := by
        rw [applyTo?, unruled first List.mem_cons_self]
      rw [applyAll, List.filterMap_cons_some kept]
      exact congrArg _ (ih fun d hd => unruled d (List.mem_cons_of_mem first hd))

namespace Declaration

/-- A declaration that is read back as it was needs no parentheses. -/
theorem isGrouped_of_read {declaration : Declaration} (said : declaration.Said) {here : Position}
    {rest behind : List Token} {fuel : Nat} (enough : 8 * count declaration.statementPieces ≤ fuel)
    (h : Parser.declaration fuel declaration.doc (place here declaration.statementPieces ++ rest) =
      .ok (declaration, behind)) : declaration.isGrouped = true := by
  rcases declaration with ⟨name, doc, params, body, isExported⟩
  have legible := said.legible
  simp only [isLegible, Bool.and_eq_true, List.all_eq_true] at legible
  have each : ∀ p ∈ params, p.Said := by
    intro p hp
    refine ⟨legible.1.2 p hp, ?_⟩
    intro text ht
    refine said.docs text ?_
    simp only [docs, List.mem_append, List.mem_flatMap]
    exact .inl (.inr ⟨p, hp, ht⟩)
  cases body with
  | «alias» type =>
      simp only [statementPieces, headPieces, count_append, count_word, count_gap, count_nil]
        at enough
      simp only [statementPieces, headPieces, place_append, place_word, place_gap,
        List.append_assoc, List.cons_append, List.nil_append, Parser.declaration_alias] at h
      rcases Parser.aliasBody_parts h with ⟨after, read⟩
      have gparams := Parser.typeParams_grouped each (by omega) read
      simpa [isGrouped, Body.isGrouped] using gparams
  | «interface» bases members =>
      simp only [statementPieces, headPieces, count_append, count_word, count_gap, count_nil]
        at enough
      simp only [statementPieces, headPieces, place_append, place_word, place_gap, place_nil,
        List.append_assoc, List.cons_append, List.nil_append, Parser.declaration_interface] at h
      rcases Parser.interfaceBody_parts h with ⟨after, read, more⟩
      have gparams := Parser.typeParams_grouped each (by omega) read
      cases bases with
      | nil => simpa [isGrouped, Body.isGrouped] using gparams
      | cons first others =>
          have saidBases : ∀ t ∈ first :: others, t.Said true := by
            intro t ht
            refine ⟨?_, ?_⟩
            · have all := legible.2
              simp only [Body.isLegible, Bool.and_eq_true, List.all_eq_true] at all
              exact all.1 t ht
            · intro text hm
              refine said.docs text ?_
              simp only [docs, Body.docs, List.mem_append, List.mem_flatMap]
              exact .inr (.inl ⟨t, ht, hm⟩)
          simp only [basesPieces, count_append, count_word, count_gap, count_nil] at enough
          simp only [basesPieces, place_word, place_gap, List.cons_append, List.nil_append] at read
          -- The parameters are read up to `extends`, so what is read behind it are the bases.
          have head : ∀ (here start : Position) (line : Nat) (rest : List Token),
              Parser.typeParams fuel (place here (paramsPieces params) ++
                ⟨.word "extends", start, line⟩ :: rest) =
                  .ok (params, ⟨.word "extends", start, line⟩ :: rest) := by
            intro here start line rest
            have same : params.map (TypeParam.mapDocs reread) = params :=
              (List.map_congr_left fun p hp => (each p hp).mapDocs_reread).trans
                (List.map_id' params)
            have stop : Parser.eatMark '<' (⟨.word "extends", start, line⟩ :: rest) = none := rfl
            have read : Parser.typeParams fuel _ = _ := Parser.typeParams_pieces
              (fun p hp => (each p hp).legible) gparams stop here (by omega)
            rwa [same] at read
          rw [head] at read
          cases read
          rcases more _ (Parser.eatWord_word _ _ _ _) with ⟨left, read⟩
          have gbases := Parser.bases_grouped saidBases (by omega) read
          rw [isGrouped, Bool.and_eq_true, List.all_eq_true, Body.isGrouped, List.all_eq_true]
          exact ⟨gparams, fun t ht => decide_eq_true (gbases t ht)⟩

/-- Declarations that are read back as they were need no parentheses. -/
theorem isGrouped_of_declarations {declarations : List Declaration}
    (said : ∀ d ∈ declarations, d.Said) {here : Position} {fuel : Nat}
    (enough : 8 * (count (piecesAll declarations) + 1) ≤ fuel)
    (h : Parser.declarations fuel (place here (piecesAll declarations)) = .ok declarations) :
    ∀ d ∈ declarations, d.isGrouped = true := by
  induction declarations generalizing here fuel with
  | nil => exact nofun
  | cons first others ih =>
      have saidFirst := said first List.mem_cons_self
      rcases place_piecesAll_cons first others here with ⟨there, rest, placed, behind, counted⟩
      have length : count first.pieces =
          count (comment 0 first.doc) + count first.statementPieces := by
        rw [pieces, count_append]
      have positive := first.count_statementPieces_pos
      rw [counted] at enough
      rcases Nat.exists_eq_add_of_lt (show 0 < fuel by omega) with ⟨fuel, rfl⟩
      rw [Nat.zero_add] at enough h
      rcases first.place_statementPieces (here.advanceAll (spell (comment 0 first.doc))) rest with
        ⟨token, after, opened, start, plain, other⟩
      have sameDoc : first.doc.map reread = first.doc :=
        congrArg Declaration.doc saidFirst.mapDocs_reread
      have doc : Parser.takeDoc (place here (comment 0 first.doc) ++ token :: after) = _ :=
        Parser.takeDoc_comment plain (by rw [start])
      rw [placed, pieces, place_append, List.append_assoc, opened, Parser.declarations, doc] at h
      simp only [other, sameDoc] at h
      rcases ok_of_bind h with ⟨⟨found, left⟩, read, h⟩
      rcases ok_of_bind h with ⟨more, readMore, h⟩
      simp only [Except.ok.injEq, List.cons.injEq] at h
      rw [h.1, ← opened] at read
      rw [h.2] at readMore
      have grouped := isGrouped_of_read saidFirst (by omega) read
      -- So the first declaration ends where it is printed to end.
      have whole : Parser.declaration fuel _ _ = _ := reread_statement saidFirst.legible grouped
        (here.advanceAll (spell (comment 0 first.doc))) rest (by omega)
      rw [sameDoc, saidFirst.mapDocs_reread, read] at whole
      cases whole
      subst behind
      exact List.forall_mem_cons.2
        ⟨grouped, ih (fun d hd => said d (List.mem_cons_of_mem first hd)) (by omega) readMore⟩

/-- A file printed from what was read of a text gives the same declarations again exactly if no base
and no bound needs parentheses; a table that has no rule for their names prints the same file. -/
theorem parse_print_iff_isGrouped {source : String} {declarations : List Declaration}
    (h : parse source = .ok declarations) :
    (parse (print declarations) = .ok declarations ↔ ∀ d ∈ declarations, d.isGrouped = true) ∧
      ∀ table : RuleTable, (∀ d ∈ declarations, table.rule? d.name = none) →
        table.applyToText source = .ok (print declarations) := by
  have said := said_of_parse h
  have legible : ∀ d ∈ declarations, d.isLegible true = true := fun d hd => (said d hd).legible
  refine ⟨⟨?_, ?_⟩, ?_⟩
  · intro same
    unfold parse at same
    rw [tokens_print legible] at same
    dsimp only at same
    split at same
    · rename_i found read
      cases same
      refine isGrouped_of_declarations said ?_ read
      rw [Parser.fuelFor, length_place]
      omega
    · cases same
  · intro grouped
    exact parse_print_of_docs legible grouped fun d hd => (said d hd).docs
  · intro table unruled
    unfold RuleTable.applyToText
    simp only [h, RuleTable.applyAll_eq_self unruled]

/-- What is read of an interface with a union as its base. -/
def unionBase : List Declaration :=
  [{ name := "A", doc := none, params := [], isExported := false
     body := .interface [.union [.named "B", .named "C"]] [] }]

theorem parse_unionBase : parse "interface A extends (B | C) {}" = .ok unionBase := by
  have read : (Lexer.tokens "interface A extends (B | C) {}").toOption =
      some [⟨.word "interface", ⟨1, 1⟩, 1⟩, ⟨.word "A", ⟨1, 11⟩, 1⟩, ⟨.word "extends", ⟨1, 13⟩, 1⟩,
        ⟨.mark '(', ⟨1, 21⟩, 1⟩, ⟨.word "B", ⟨1, 22⟩, 1⟩, ⟨.mark '|', ⟨1, 24⟩, 1⟩,
        ⟨.word "C", ⟨1, 26⟩, 1⟩, ⟨.mark ')', ⟨1, 27⟩, 1⟩, ⟨.mark '{', ⟨1, 29⟩, 1⟩,
        ⟨.mark '}', ⟨1, 30⟩, 1⟩] := by decide +kernel
  unfold parse
  cases tokens : Lexer.tokens "interface A extends (B | C) {}" with
  | error e =>
      rw [tokens] at read
      cases read
  | ok found =>
      rw [tokens] at read
      cases read
      rfl

/-- The union is printed without parentheses, and the file cannot be read again as it was. -/
theorem parse_print_unionBase_ne :
    parse "interface A extends (B | C) {}" = .ok unionBase ∧
      parse (print unionBase) ≠ .ok unionBase := by
  refine ⟨parse_unionBase, ?_⟩
  intro same
  have grouped := (parse_print_iff_isGrouped parse_unionBase).1.1 same
  exact absurd (grouped _ List.mem_cons_self) (by decide)

end Declaration

end HyperSchema
