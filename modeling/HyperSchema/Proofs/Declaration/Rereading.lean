import HyperSchema.Proofs.Declaration.Fragments

/-!
# Rereading — printed declarations are read back

What a text can say is read back from its pieces, with each comment replaced by the text that is
read of it:

* `TypeExpr.rereads` for types, by induction over the type, with one lemma for each kind;
* `TypeParam.reread` for type parameters, provided that the bound needs no parentheses;
* `Declaration.reread_pieces` for declarations, provided that no base needs parentheses;
* `Declaration.parse_print_mapDocs`: printed declarations are read back.
-/

namespace HyperSchema

open Piece

/-! ## Types -/

namespace TypeExpr

variable {level : Nat} {head : Bool}

/-! ### One lemma for each kind of type -/

theorem bracket (start : Position) (line : Nat) (rest : List Token) :
    Parser.Delimits 5 (⟨.mark '[', start, line⟩ :: rest) :=
  .mark (by decide) rest

theorem rereads_reference {name : String} {args : List TypeExpr}
    (legible : (reference name args).isLegible head = true)
    (each : ∀ t ∈ args, t.Reread 0 (t.grouped level 0)) :
    (reference name args).Rereads ((reference name args).pieces level) := by
  refine .of_primary rfl (pieces_opens legible level) ?_
  intro here rest stop fuel hf
  rw [isLegible, Bool.and_eq_true] at legible
  obtain ⟨first, others, split, named, unreserved, -⟩ := Piece.name_opens legible.1
  -- The reader takes the first part as a word and joins the others to it by points.
  have free := Parser.plainWord?_eq_none unreserved
  have whole : String.ofList (['.'].intercalate (first :: others)) = name := by
    rw [← split, Text.intercalate_splitOn, String.ofList_toList]
  have dotted : ∀ here rest, Parser.eatMark '.' rest = none →
      Parser.dotted (String.ofList first)
        (place here (others.flatMap fun part => [mark '.', word (String.ofList part)]) ++ rest) =
          .ok (name, rest) := by
    intro here rest stop
    rw [Parser.dotted_pieces stop, whole]
  cases args with
  | nil =>
      simp only [pieces, named, place_word, List.cons_append]
      exact Parser.primary_named free (dotted _ rest (stop.eatMark_eq_none (by decide)))
        (stop.eatMark_eq_none (by decide))
  | cons arg args =>
      simp only [pieces, piecesAll_eq_map, named, count_append, count_word, count_mark, count_nil,
        List.cons_append] at hf
      simp only [pieces, piecesAll_eq_map, named, place_append, place_word, place_mark, place_nil,
        List.cons_append, List.append_assoc, List.nil_append, mapDocs, mapDocsAll_eq_map]
      refine Parser.primary_applied free (dotted _ _ rfl)
        (Parser.arguments_pieces each (List.cons_ne_nil _ _) ?_)
      omega

theorem rereads_array {element : TypeExpr}
    (h : element.Rechained (group 4 element (element.pieces level))) :
    (array element).Rereads ((array element).pieces level) := by
  refine ⟨fun weak => absurd weak (by simp [strength]), fun _ here rest stop fuel hf => ?_⟩
  simp only [pieces, count_append, count_mark, count_nil] at hf ⊢
  simp only [place_append, place_mark, place_nil, List.append_assoc, List.cons_append,
    List.nil_append]
  -- The element leaves enough fuel for the brackets behind it.
  obtain ⟨left, hl, read⟩ := h here _ (bracket _ _ _) fuel (by omega)
  obtain ⟨left, rfl⟩ : ∃ n, left = n + 1 := ⟨left - 1, by omega⟩
  exact ⟨left, by omega, read.trans Parser.indices_array⟩

theorem rereads_access {object index : TypeExpr} {plain : Prop}
    (h : object.Rechained (group 4 object (object.pieces level)))
    (opens : Opens plain (index.pieces level)) (hi : index.Reread 0 (index.pieces level)) :
    (access object index).Rereads ((access object index).pieces level) := by
  refine ⟨fun weak => absurd weak (by simp [strength]), fun _ here rest stop fuel hf => ?_⟩
  simp only [pieces, count_append, count_mark, count_nil] at hf ⊢
  simp only [place_append, place_mark, place_nil, List.append_assoc, List.cons_append,
    List.nil_append]
  obtain ⟨left, hl, read⟩ := h here _ (bracket _ _ _) fuel (by omega)
  obtain ⟨left, rfl⟩ : ∃ n, left = n + 1 := ⟨left - 1, by omega⟩
  refine ⟨left, by omega, read.trans (Parser.indices_access (opens.tokens _ _)
    (hi _ _ ?_ left (by omega)))⟩
  exact .mark (by decide) _

theorem rereads_tuple {items : List TypeExpr} (legible : (tuple items).isLegible head = true)
    (each : ∀ t ∈ items, t.ItemReread (t.grouped level 0)) :
    (tuple items).Rereads ((tuple items).pieces level) := by
  refine .of_primary rfl (pieces_opens legible level) ?_
  intro here rest stop fuel hf
  cases items with
  | nil =>
      obtain ⟨fuel, rfl⟩ : ∃ n, fuel = n + 1 := ⟨fuel - 1, by simp [pieces, piecesAll] at hf; omega⟩
      exact Parser.primary_tuple Parser.tupleItems_nil
  | cons first others =>
      simp only [pieces, piecesAll_eq_map, count_append, count_mark, count_nil] at hf
      simp only [pieces, piecesAll_eq_map, place_append, place_mark, place_nil, List.cons_append,
        List.append_assoc, List.nil_append, mapDocs, mapDocsAll_eq_map]
      refine Parser.primary_tuple (Parser.tupleItems_pieces each (List.cons_ne_nil _ _) ?_)
      omega

theorem object_pieces {members : List Member} (each : ∀ m ∈ members, m.Reread (level + 1))
    (here : Position) (rest : List Token) :
    Parser.YieldsObject (8 * count ((object members).pieces level))
      (place here ((object members).pieces level) ++ rest)
      (members.map (Member.mapDocs Declaration.reread)) rest := by
  cases members with
  | nil =>
      refine ⟨_, _, _, rfl, fun fuel hf => ?_⟩
      simp only [pieces, count_mark] at hf
      obtain ⟨fuel, rfl⟩ : ∃ n, fuel = n + 1 := ⟨fuel - 1, by omega⟩
      exact Parser.members_nil _ _
  | cons first others =>
      simp only [pieces, Member.piecesAll_eq_flatMap, place_append, place_mark, place_gap,
        place_nil, List.cons_append, List.append_assoc, List.nil_append, count_append, count_mark,
        count_gap, count_nil]
      exact ⟨_, _, _, rfl, fun fuel hf => Parser.members_pieces each _ _ (by omega)⟩

theorem rereads_object {members : List Member} (legible : (object members).isLegible head = true)
    (each : ∀ m ∈ members, m.Reread (level + 1)) :
    (object members).Rereads ((object members).pieces level) := by
  refine .of_primary rfl (pieces_opens legible level) ?_
  intro here rest stop fuel hf
  obtain ⟨start, line, behind, opened, read⟩ := object_pieces each here rest
  rw [opened, mapDocs, Member.mapDocsAll_eq_map]
  exact Parser.primary_object (read fuel hf)

theorem rereads_keyOf {operand : TypeExpr} (h : operand.Reread 3 (operand.grouped level 3)) :
    (keyOf operand).Rereads ((keyOf operand).pieces level) := by
  refine ⟨fun _ here rest stop fuel hf => ?_, fun strong => absurd strong (by simp [strength])⟩
  simp only [pieces, count_append, count_word, count_gap, count_nil, strength] at hf
  simp only [pieces, place_word, List.cons_append]
  obtain ⟨fuel, rfl⟩ : ∃ n, fuel = n + 1 := ⟨fuel - 1, by omega⟩
  show Parser.keyed _ _ = _
  exact Parser.keyed_keyOf (h _ rest stop fuel (by simp only [grouped]; omega))

theorem rereads_union {alternatives : List TypeExpr}
    (legible : (union alternatives).isLegible head = true)
    (each : ∀ t ∈ alternatives, t.Reread 2 (t.grouped level 2)) :
    (union alternatives).Rereads ((union alternatives).pieces level) := by
  refine ⟨fun _ here rest stop fuel hf => ?_, fun strong => absurd strong (by simp [strength])⟩
  have opens := (pieces_opens legible level).tokens here rest
  cases alternatives with
  | nil => cases legible
  | cons first others =>
      cases others with
      | nil => cases legible
      | cons second others =>
          simp only [pieces, piecesAll_eq_map, strength] at hf opens ⊢
          obtain ⟨fuel, rfl⟩ : ∃ n, fuel = n + 1 := ⟨fuel - 1, by omega⟩
          rw [mapDocs, mapDocsAll_eq_map]
          have ended : Parser.Delimits 1 rest := stop
          obtain ⟨behind, front, back⟩ := Parser.operands_pieces 2 '|' (rfl : bar = _)
            (by decide) (ended.mono (by decide))
            (fun _ => Parser.unionRest_nil (ended.eatMark_eq_none (by decide)))
            (fun next others => Parser.unionRest_cons next others) each here (by decide) fuel
            (by omega)
          exact Parser.union_of_rest opens front back

theorem rereads_intersection {parts : List TypeExpr}
    (legible : (intersection parts).isLegible head = true)
    (each : ∀ t ∈ parts, t.Reread 3 (t.grouped level 3)) :
    (intersection parts).Rereads ((intersection parts).pieces level) := by
  refine ⟨fun _ here rest stop fuel hf => ?_, fun strong => absurd strong (by simp [strength])⟩
  have opens := (pieces_opens legible level).tokens here rest
  cases parts with
  | nil => cases legible
  | cons first others =>
      cases others with
      | nil => cases legible
      | cons second others =>
          simp only [pieces, piecesAll_eq_map, strength] at hf opens ⊢
          obtain ⟨fuel, rfl⟩ : ∃ n, fuel = n + 1 := ⟨fuel - 1, by omega⟩
          rw [mapDocs, mapDocsAll_eq_map]
          have ended : Parser.Delimits 2 rest := stop
          obtain ⟨behind, front, back⟩ := Parser.operands_pieces 3 '&' (rfl : ampersand = _)
            (by decide) (ended.mono (by decide))
            (fun _ => Parser.intersectionRest_nil (ended.eatMark_eq_none (by decide)))
            (fun next others => Parser.intersectionRest_cons next others) each here (by decide) fuel
            (by omega)
          exact Parser.intersection_of_rest opens front back

theorem rereads_conditional {check bound whenTrue whenFalse : TypeExpr}
    (hc : check.Reread 1 (check.grouped level 1)) (hb : bound.Reread 1 (bound.grouped level 1))
    (ht : whenTrue.Reread 0 (whenTrue.pieces level))
    (hf : whenFalse.Reread 0 (whenFalse.pieces level)) :
    (conditional check bound whenTrue whenFalse).Rereads
      ((conditional check bound whenTrue whenFalse).pieces level) := by
  refine ⟨fun _ here rest stop fuel enough => ?_, fun strong => absurd strong (by simp [strength])⟩
  simp only [pieces, count_append, count_word, count_mark, count_gap, count_nil, strength] at enough
  simp only [pieces, place_append, place_word, place_mark, place_gap, List.append_assoc,
    List.cons_append, List.nil_append, mapDocs]
  obtain ⟨fuel, rfl⟩ : ∃ n, fuel = n + 1 := ⟨fuel - 1, by omega⟩
  refine Parser.type_conditional
    (hc _ _ (.word (by decide) _) fuel (by simp only [grouped]; omega))
    (hb _ _ (.mark (by decide) _) fuel (by simp only [grouped]; omega))
    (ht _ _ (.mark (by decide) _) fuel (by omega)) (hf _ _ stop fuel (by omega))

theorem ItemReread.of_reread {t : TypeExpr} {plain : Prop} (opens : Opens plain (t.pieces level))
    (h : t.Reread 0 (t.pieces level)) : t.ItemReread (t.grouped level 0) := by
  intro here rest stop
  rw [grouped_zero]
  have opened := opens.tokens here rest
  refine ⟨opened.eatMark_eq_none rfl, fun fuel hf => ?_⟩
  obtain ⟨fuel, rfl⟩ : ∃ n, fuel = n + 1 := ⟨fuel - 1, by omega⟩
  exact (Parser.tupleItem_plain opened).trans (h here rest stop fuel (by omega))

theorem ItemReread.of_rest {element : TypeExpr}
    (h : element.Reread 0 (group 4 element (element.pieces level))) :
    (rest element).ItemReread ((rest element).grouped level 0) := by
  intro here rest stop
  refine ⟨rfl, fun fuel hf => ?_⟩
  obtain ⟨fuel, rfl⟩ : ∃ n, fuel = n + 1 := ⟨fuel - 1, by omega⟩
  rw [grouped_zero, pieces, count_token] at hf
  exact Parser.tupleItem_rest (h _ rest stop fuel (by omega))

/-! ### All types -/

/-- A type that a text can say is read back from its pieces. -/
theorem rereads {t : TypeExpr} (legible : t.isLegible head = true) :
    t.Rereads (t.pieces level) := by
  -- The places inside a type that ask for a strength of at most four, or for none.
  have inside : ∀ {t : TypeExpr} {level wanted : Nat}, t.isLegible false = true →
      t.Rereads (t.pieces level) → wanted ≤ 4 → t.Reread wanted (t.grouped level wanted) :=
    fun legible h hw => h.group (pieces_opens_plain legible _) hw
  have free : ∀ {t : TypeExpr} {level : Nat}, t.isLegible false = true →
      t.Rereads (t.pieces level) → t.Reread 0 (t.pieces level) :=
    fun legible h => h.reread (pieces_opens_plain legible _) (Nat.zero_le _) (by decide)
  induction t using TypeExpr.induct generalizing head level with
  | keyword word =>
      refine .of_primary rfl (pieces_opens legible level) ?_
      intro here rest stop fuel hf
      exact Parser.primary_plain (Parser.plainWord?_keyword word)
  | string text =>
      refine .of_primary rfl (pieces_opens legible level) ?_
      intro here rest stop fuel hf
      exact Parser.primary_text
  | number spelling =>
      refine .of_primary rfl (pieces_opens legible level) ?_
      intro here rest stop fuel hf
      exact Parser.primary_number_pieces
  | boolean value =>
      refine .of_primary rfl (pieces_opens legible level) ?_
      intro here rest stop fuel hf
      exact Parser.primary_plain (Parser.plainWord?_boolean value)
  | reference name args ih =>
      have each := legible
      simp only [isLegible, areLegible_eq_all, Bool.and_eq_true, List.all_eq_true] at each
      refine rereads_reference legible ?_
      intro t ht
      exact inside (each.2 t ht) (ih t ht (each.2 t ht)) (by decide)
  | array element ih =>
      rw [isLegible] at legible
      exact rereads_array ((ih legible).groupChain (pieces_opens legible level))
  | tuple items ih inner =>
      have each := legible
      simp only [isLegible, areLegibleItems_eq_all, List.all_eq_true] at each
      refine rereads_tuple legible ?_
      intro t ht
      rcases isLegibleItem_cases (each t ht) with plain | ⟨element, rfl, plain⟩
      · exact .of_reread (pieces_opens plain level) (free plain (ih t ht plain))
      · have strong := fun hs : 4 ≤ element.strength =>
          (pieces_opens_plain plain level).imp fun _ : True => hs
        exact .of_rest ((inside plain (inner element ht plain) (Nat.le_refl 4)).lower (by decide)
          (Nat.le_refl 4) (opens_group strong) fun _ _ => trivial)
  | rest element => cases legible
  | union alternatives ih =>
      have each := legible
      simp only [isLegible, areLegible_eq_all, Bool.and_eq_true, List.all_eq_true] at each
      refine rereads_union legible ?_
      intro t ht
      exact inside (each.2 t ht) (ih t ht (each.2 t ht)) (by decide)
  | intersection parts ih =>
      have each := legible
      simp only [isLegible, areLegible_eq_all, Bool.and_eq_true, List.all_eq_true] at each
      refine rereads_intersection legible ?_
      intro t ht
      exact inside (each.2 t ht) (ih t ht (each.2 t ht)) (by decide)
  | object members ih =>
      have each := legible
      simp only [isLegible, Member.areLegible_eq_all, List.all_eq_true] at each
      refine rereads_object legible ?_
      intro m hm
      refine Member.reread_of_types ?_
      intro t ht
      have plain := Member.isLegible_of_mem_types (each m hm) t ht
      exact free plain (ih m hm t ht plain)
  | keyOf operand ih =>
      rw [isLegible] at legible
      exact rereads_keyOf (inside legible (ih legible) (by decide))
  | conditional check bound whenTrue whenFalse ihc ihb iht ihf =>
      simp only [isLegible, Bool.and_eq_true] at legible
      obtain ⟨⟨⟨hc, hb⟩, ht⟩, hf⟩ := legible
      exact rereads_conditional (inside hc (ihc hc) (by decide)) (inside hb (ihb hb) (by decide))
        (free ht (iht ht)) (free hf (ihf hf))
  | access object index iho ihi =>
      simp only [isLegible, Bool.and_eq_true] at legible
      obtain ⟨ho, hi⟩ := legible
      exact rereads_access ((iho ho).groupChain (pieces_opens ho level)) (pieces_opens hi level)
        (free hi (ihi hi))

end TypeExpr

/-! ## Declarations -/

theorem Parser.union_bound {bound : TypeExpr} (legible : bound.isLegible false = true)
    (strong : 1 ≤ bound.strength) : bound.Reread 1 (bound.pieces 0) :=
  (TypeExpr.rereads legible).reread (TypeExpr.pieces_opens_plain legible 0) strong (by decide)

theorem TypeExpr.reread_free {t : TypeExpr} (legible : t.isLegible false = true) (level : Nat) :
    t.Reread 0 (t.pieces level) :=
  (rereads legible).reread (pieces_opens_plain legible level) (Nat.zero_le _) (by decide)

/-- A bound or a default is read back behind what introduces it, or found to be missing. -/
theorem Parser.optional_pieces {type? : Option TypeExpr} {strength fuel : Nat} {sign : Piece}
    {here : Position} {rest : List Token} {eat : List Token → Option (List Token)}
    (eaten : ∀ here others, eat (place here (sign :: others) ++ rest) =
      some (place (here.advanceAll sign.chars) others ++ rest))
    (absent : eat rest = none) (counted : ∀ others, count (sign :: others) = count others + 1)
    (stop : Delimits strength rest) (weak : strength ≤ 4)
    (each : ∀ type ∈ type?, type.Reread strength (type.pieces 0))
    (enough : 8 * count (TypeExpr.optionalPieces sign type?) + 5 ≤ fuel) :
    optional (reader strength fuel)
        (eat (place here (TypeExpr.optionalPieces sign type?) ++ rest))
        (place here (TypeExpr.optionalPieces sign type?) ++ rest) =
      .ok (type?.map (TypeExpr.mapDocs Declaration.reread), rest) := by
  cases type? with
  | none =>
      simp only [TypeExpr.optionalPieces, place_nil, List.nil_append, absent]
      rfl
  | some type =>
      simp only [TypeExpr.optionalPieces, List.cons_append, List.nil_append, place_gap, count_gap,
        counted] at enough ⊢
      have read := each type rfl (((here.advanceAll [' ']).advanceAll sign.chars).advanceAll [' '])
        rest stop fuel (by omega)
      rw [eaten]
      simp only [optional, place_gap, bind, Except.bind, read]
      rfl

theorem TypeParam.reread {param : TypeParam} (legible : param.isLegible = true)
    (ungrouped : param.isGrouped = true) {here : Position} {rest : List Token}
    (stop : Parser.Delimits 0 rest) (ended : Parser.eatMark '=' rest = none) {fuel : Nat}
    (enough : 8 * count param.pieces + 5 ≤ fuel) :
    Parser.typeParam fuel (place here param.pieces ++ rest) =
      .ok (param.mapDocs Declaration.reread, rest) := by
  obtain ⟨name, bound, default⟩ := param
  simp only [isLegible, Bool.and_eq_true] at legible
  obtain ⟨⟨-, hbound⟩, hdefault⟩ := legible
  simp only [pieces, count_append, count_word, count_nil] at enough
  have assigned : ∀ here, Parser.optional (Parser.type fuel)
      (Parser.eatMark '=' (place here (TypeExpr.optionalPieces (mark '=') default) ++ rest))
      (place here (TypeExpr.optionalPieces (mark '=') default) ++ rest) =
        .ok (default.map (TypeExpr.mapDocs Declaration.reread), rest) := by
    intro here
    show Parser.optional (Parser.reader 0 fuel) _ _ = _
    refine Parser.optional_pieces (fun _ _ => Parser.eatMark_mark _ _ _ _) ended
      (fun _ => rfl) stop (by decide) ?_ (by omega)
    rintro type ⟨⟩
    exact TypeExpr.reread_free hdefault 0
  -- A bound ends at the `=` of a default or where the parameter ends.
  have behind : ∀ here, Parser.Delimits 0
      (place here (TypeExpr.optionalPieces (mark '=') default) ++ rest) := by
    intro here
    cases default with
    | none => exact stop
    | some default => exact .mark (by decide) _
  have extended : ∀ here rest, Parser.Delimits 0 rest → Parser.optional (Parser.union fuel)
      (Parser.eatWord "extends"
        (place here (TypeExpr.optionalPieces (word "extends") bound) ++ rest))
      (place here (TypeExpr.optionalPieces (word "extends") bound) ++ rest) =
        .ok (bound.map (TypeExpr.mapDocs Declaration.reread), rest) := by
    intro here rest stop
    show Parser.optional (Parser.reader 1 fuel) _ _ = _
    refine Parser.optional_pieces (fun _ _ => Parser.eatWord_word _ _ _ _)
      stop.eatWord_eq_none (fun _ => rfl) (stop.mono (by decide)) (by decide) ?_ (by omega)
    rintro type ⟨⟩
    exact Parser.union_bound hbound (by simpa [isGrouped] using ungrouped)
  simp only [pieces, place_append, place_word, List.cons_append, List.append_assoc,
    List.nil_append]
  exact Parser.typeParam_of_parts (extended _ _ (behind _)) (assigned _)

/-- The head of a declaration is read back, behind its name. -/
theorem Parser.typeParams_pieces {params : List TypeParam}
    (legible : ∀ p ∈ params, p.isLegible = true) (ungrouped : ∀ p ∈ params, p.isGrouped = true)
    {rest : List Token} (stop : eatMark '<' rest = none) (here : Position) {fuel : Nat}
    (enough : 8 * count (Declaration.paramsPieces params) ≤ fuel) :
    typeParams fuel (place here (Declaration.paramsPieces params) ++ rest) =
      .ok (params.map (TypeParam.mapDocs Declaration.reread), rest) := by
  cases params with
  | nil =>
      simp only [Declaration.paramsPieces, place_nil, List.nil_append, typeParams, stop]
      rfl
  | cons first others =>
      simp only [Declaration.paramsPieces, count_mark, count_append, count_nil] at enough
      simp only [Declaration.paramsPieces, place_mark, place_append, place_nil, List.cons_append,
        List.append_assoc, List.nil_append, typeParams, eatMark_mark]
      refine read_separated ?_ ?_ (List.cons_ne_nil _ _) _ _ (by omega)
      · intro param hp here fuel hf
        obtain ⟨fuel, rfl⟩ : ∃ n, fuel = n + 1 := ⟨fuel - 1, by omega⟩
        exact typeParamList_last rfl (TypeParam.reread (legible param hp) (ungrouped param hp)
          (.mark (by decide) _) rfl (by omega))
      · intro param hp here start line fuel behind others hf hr
        exact typeParamList_cons rfl (TypeParam.reread (legible param hp) (ungrouped param hp)
          (.mark (by decide) _) rfl (by omega)) hr

theorem Parser.bases_pieces {extended : List TypeExpr} {head : Bool}
    (legible : ∀ t ∈ extended, t.isLegible head = true)
    (ungrouped : ∀ t ∈ extended, 4 ≤ t.strength) (nonempty : extended ≠ []) {rest : List Token}
    (stop : Delimits 0 rest) (ended : eatMark ',' rest = none) (here : Position) {fuel : Nat}
    (enough : 8 * (count (comma.intercalate (extended.map (TypeExpr.grouped 0 0))) + 1) ≤ fuel) :
    bases fuel (place here (comma.intercalate (extended.map (TypeExpr.grouped 0 0))) ++ rest) =
      .ok (extended.map (TypeExpr.mapDocs Declaration.reread), rest) := by
  have each : ∀ t ∈ extended, t.Reread 4 (t.grouped 0 0) := by
    intro t ht
    rw [TypeExpr.grouped_zero]
    exact ((TypeExpr.rereads (legible t ht)).2 (ungrouped t ht)).reread
  refine read_separated ?_ ?_ nonempty _ _ enough
  · intro t ht here fuel hf
    obtain ⟨fuel, rfl⟩ : ∃ n, fuel = n + 1 := ⟨fuel - 1, by omega⟩
    exact bases_last (each t ht here _ (stop.mono (by decide)) fuel (by omega)) ended
  · intro t ht here start line fuel behind others hf hr
    exact bases_cons (each t ht here _ (.mark (by decide) _) fuel (by omega)) hr

section Keywords

variable {fuel : Nat} {doc : Option String} {here start : Position} {line : Nat}
  {tokens : List Token}

theorem Parser.declaration_interface (isExported : Bool) :
    declaration fuel doc (place here (modifier isExported "export") ++
        ⟨.word "interface", start, line⟩ :: tokens) = interfaceBody fuel doc isExported tokens := by
  have exported : eatWord "export" (⟨.word "interface", start, line⟩ :: tokens) = none := rfl
  have declared : eatWord "declare" (⟨.word "interface", start, line⟩ :: tokens) = none := rfl
  cases isExported with
  | false =>
      simp [declaration, modifier, exported, declared]
  | true =>
      simp [declaration, modifier, declared]

theorem Parser.declaration_alias (isExported : Bool) :
    declaration fuel doc (place here (modifier isExported "export") ++
        ⟨.word "type", start, line⟩ :: tokens) = aliasBody fuel doc isExported tokens := by
  have exported : eatWord "export" (⟨.word "type", start, line⟩ :: tokens) = none := rfl
  have declared : eatWord "declare" (⟨.word "type", start, line⟩ :: tokens) = none := rfl
  have other : eatWord "interface" (⟨.word "type", start, line⟩ :: tokens) = none := rfl
  cases isExported with
  | false => simp [declaration, modifier, exported, declared, other]
  | true => simp [declaration, modifier, declared, other]

end Keywords

namespace Declaration

/-- The pieces of a declaration behind its comment start with a word, on which nothing else ends. -/
theorem place_statementPieces (declaration : Declaration) (here : Position) (rest : List Token) :
    ∃ token behind, place here declaration.statementPieces ++ rest = token :: behind ∧
      token.start = here ∧ Parser.isDoc token = false ∧
      Parser.eatMark ';' (token :: behind) = none := by
  obtain ⟨name, doc, params, body, isExported⟩ := declaration
  cases isExported with
  | true => cases body <;> exact ⟨_, _, rfl, rfl, rfl, rfl⟩
  | false => cases body <;> exact ⟨_, _, rfl, rfl, rfl, rfl⟩

/-- A declaration is read back from its pieces behind its comment. -/
theorem reread_statement {declaration : Declaration} {head : Bool}
    (legible : declaration.isLegible head = true) (ungrouped : declaration.isGrouped = true)
    (here : Position) (rest : List Token) {fuel : Nat}
    (enough : 8 * count declaration.statementPieces ≤ fuel) :
    Parser.declaration fuel (declaration.doc.map reread)
        (place here declaration.statementPieces ++ rest) =
      .ok (declaration.mapDocs reread, rest) := by
  obtain ⟨name, doc, params, body, isExported⟩ := declaration
  simp only [isLegible, isGrouped, Bool.and_eq_true, List.all_eq_true] at legible ungrouped
  obtain ⟨⟨-, hparams⟩, hbody⟩ := legible
  obtain ⟨gparams, gbody⟩ := ungrouped
  have head : ∀ rest, Parser.eatMark '<' rest = none → ∀ here,
      8 * count (paramsPieces params) ≤ fuel →
        Parser.typeParams fuel (place here (paramsPieces params) ++ rest) =
          .ok (params.map (TypeParam.mapDocs reread), rest) :=
    fun rest stop here enough => Parser.typeParams_pieces hparams gparams stop here enough
  cases body with
  | «interface» bases members =>
      simp only [Body.isLegible, Body.isGrouped, Bool.and_eq_true, List.all_eq_true,
        decide_eq_true_eq] at hbody gbody
      have each : ∀ m ∈ members, m.Reread (0 + 1) := fun m hm => Member.reread_of_types fun t ht =>
        TypeExpr.reread_free (Member.isLegible_of_mem_types (hbody.2 m hm) t ht) 1
      simp only [statementPieces, headPieces, count_append, count_word, count_gap, count_nil]
        at enough
      simp only [statementPieces, headPieces, place_append, place_word, place_gap, place_nil,
        List.append_assoc, List.cons_append, List.nil_append, Parser.declaration_interface]
      have body := fun here => TypeExpr.object_pieces each here rest
      cases bases with
      | nil =>
          -- Without bases and parameters the brace of the members stands behind the name.
          have free : ∀ here, Parser.eatMark '<'
              (place here ((TypeExpr.object members).pieces 0) ++ rest) = none :=
            fun here => (body here).ends.1.eatMark_eq_none (by decide)
          simp only [basesPieces, place_nil, List.nil_append]
          exact Parser.interfaceBody_plain (head _ (free _) _ (by omega)) (body _) (by omega)
      | cons first others =>
          simp only [basesPieces, count_append, count_word, count_gap, count_nil] at enough
          simp only [basesPieces, place_word, place_gap, List.cons_append, List.nil_append]
          exact Parser.interfaceBody_extends (head _ rfl _ (by omega))
            (Parser.bases_pieces hbody.1 gbody (List.cons_ne_nil _ _) (body _).ends.1
              (body _).ends.2 _ (by omega)) (body _) (by omega)
  | «alias» type =>
      simp only [statementPieces, headPieces, place_append, place_word, place_gap, place_mark,
        place_nil, List.append_assoc, List.cons_append, List.nil_append, Parser.declaration_alias]
      simp only [statementPieces, headPieces, count_append, count_word, count_gap, count_mark,
        count_nil] at enough
      exact Parser.aliasBody_of_type (head _ rfl _ (by omega))
        (TypeExpr.reread_free hbody 0 _ _ (.mark (by decide) _) fuel (by omega))

theorem count_statementPieces_pos (declaration : Declaration) :
    0 < count declaration.statementPieces := by
  obtain ⟨name, doc, params, body, isExported⟩ := declaration
  cases body <;> simp only [statementPieces, headPieces, count_append, count_word] <;> omega

/-- Behind the pieces of the first declaration stand those of the others. -/
theorem place_piecesAll_cons (first : Declaration) (others : List Declaration) (here : Position) :
    ∃ there rest, place here (piecesAll (first :: others)) = place here first.pieces ++ rest ∧
      rest = place there (piecesAll others) ∧
      count (piecesAll (first :: others)) = count first.pieces + count (piecesAll others) := by
  cases others with
  | nil => exact ⟨here, [], by simp [piecesAll], rfl, by simp [piecesAll]⟩
  | cons second others =>
      refine ⟨(here.advanceAll (spell first.pieces)).advanceAll ['\n'], _, ?_, rfl, ?_⟩
      · simp [piecesAll]
      · simp [piecesAll]

/-- Printed declarations are read back one after the other. -/
theorem declarations_pieces {declarations : List Declaration} {head : Bool}
    (legible : ∀ d ∈ declarations, d.isLegible head = true)
    (ungrouped : ∀ d ∈ declarations, d.isGrouped = true) (here : Position) {fuel : Nat}
    (enough : 8 * (count (piecesAll declarations) + 1) ≤ fuel) :
    Parser.declarations fuel (place here (piecesAll declarations)) =
      .ok (declarations.map (mapDocs reread)) := by
  induction declarations generalizing here fuel with
  | nil =>
      obtain ⟨fuel, rfl⟩ : ∃ n, fuel = n + 1 := ⟨fuel - 1, by omega⟩
      rfl
  | cons first others ih =>
      have tail : ∀ here fuel, 8 * (count (piecesAll others) + 1) ≤ fuel →
          Parser.declarations fuel (place here (piecesAll others)) =
            .ok (others.map (mapDocs reread)) :=
        fun here fuel => ih (fun d hd => legible d (List.mem_cons_of_mem first hd))
          (fun d hd => ungrouped d (List.mem_cons_of_mem first hd)) here
      rcases place_piecesAll_cons first others here with ⟨there, rest, placed, behind, counted⟩
      rw [counted] at enough
      have positive := first.count_statementPieces_pos
      have length : count first.pieces =
          count (comment 0 first.doc) + count first.statementPieces := by
        rw [pieces, count_append]
      obtain ⟨fuel, rfl⟩ : ∃ n, fuel = n + 1 := ⟨fuel - 1, by omega⟩
      -- A declaration has at least one token, so it pays for the step to the next.
      have enoughHere : 8 * count first.statementPieces ≤ fuel := by omega
      have read := reread_statement (legible first List.mem_cons_self)
        (ungrouped first List.mem_cons_self) (here.advanceAll (spell (comment 0 first.doc))) rest
        enoughHere
      obtain ⟨token, behind', opened, start, plain, other⟩ := first.place_statementPieces
        (here.advanceAll (spell (comment 0 first.doc))) rest
      rw [opened] at read
      rw [placed, pieces, place_append, List.append_assoc, opened]
      refine Parser.declarations_cons (Parser.takeDoc_comment plain (by rw [start])) other read ?_
      rw [behind]
      exact tail there fuel (by omega)

/-- What is read of printed declarations, whatever texts their comments hold. -/
theorem parse_print_mapDocs {declarations : List Declaration} {head : Bool}
    (legible : ∀ d ∈ declarations, d.isLegible head = true)
    (ungrouped : ∀ d ∈ declarations, d.isGrouped = true) :
    parse (print declarations) = .ok (declarations.map (mapDocs reread)) := by
  have enough : 8 * (count (piecesAll declarations) + 1) ≤
      Parser.fuelFor (place .first (piecesAll declarations)) := by
    rw [Parser.fuelFor, length_place]
    omega
  unfold parse
  rw [tokens_print legible]
  simp only [declarations_pieces legible ungrouped .first enough]

/-- Where comments have the form of comments, they are read back as well. -/
theorem parse_print_of_docs {declarations : List Declaration} {head : Bool}
    (legible : ∀ d ∈ declarations, d.isLegible head = true)
    (ungrouped : ∀ d ∈ declarations, d.isGrouped = true)
    (docs : ∀ d ∈ declarations, ∀ text ∈ d.docs, isDocText text = true) :
    parse (print declarations) = .ok declarations := by
  have each : ∀ d ∈ declarations, d.mapDocs reread = d := fun d hd =>
    mapDocs_eq_self fun text ht => reread_eq_self (docs d hd text ht)
  have same : declarations.map (mapDocs reread) = declarations :=
    (List.map_congr_left each).trans (List.map_id' declarations)
  rw [parse_print_mapDocs legible ungrouped, same]

end Declaration

end HyperSchema
