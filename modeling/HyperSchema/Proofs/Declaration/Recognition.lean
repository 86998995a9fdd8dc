import HyperSchema.Proofs.Declaration.Layout

/-!
# Recognition — the tokens of printed declarations

Each piece of a printed text is read as what it is, provided that a text can say what was printed:

* `TypeExpr.allRead_pieces` for types, by induction over the type;
* `TypeParam.allRead_pieces` and `Declaration.allRead_pieces`;
* `Declaration.tokens_print`: the tokens of printed declarations are those of their pieces.

Nothing is asked of comments here, since their pieces hold the text that is read of them.
-/

namespace HyperSchema

open Piece

/-! ## Groups of pieces -/

namespace Piece

/-- A sign or a blank, but no point, stands behind a type. -/
theorem stops_cons {c : Char} (h : c ∈ Lexer.stoppers ∧ c ≠ '.') (rest : List Char) :
    Stops (c :: rest) := by
  intro d hd
  obtain rfl : c = d := by simpa using hd
  exact (Lexer.stopper_ends h.1).imp_right fun number => number h.2

theorem reads_word_stops {name : String} {rest : List Char}
    (h : Lexer.isIdentifier name.toList = true) (stop : Stops rest) : (word name).Reads rest :=
  reads_word h fun c hc => (stop c hc).1

theorem allRead_comma (rest : List Char) : AllRead comma rest :=
  ⟨reads_mark (by decide) _, reads_gap rfl _, trivial⟩

theorem allRead_bar (rest : List Char) : AllRead bar rest :=
  ⟨reads_gap rfl _, reads_mark (by decide) _, reads_gap rfl _, trivial⟩

theorem allRead_ampersand (rest : List Char) : AllRead ampersand rest :=
  ⟨reads_gap rfl _, reads_mark (by decide) _, reads_gap rfl _, trivial⟩

/-- Parts are read one by one if what stands between them is a separator. -/
theorem allRead_intercalate {separator : List Piece} {parts : List (List Piece)} {rest : List Char}
    (between : ∀ tail, AllRead separator tail) (stop : ∀ tail, Stops (spell separator ++ tail))
    (each : ∀ part ∈ parts, ∀ tail, Stops tail → AllRead part tail) (last : Stops rest) :
    AllRead (separator.intercalate parts) rest := by
  induction parts with
  | nil => exact trivial
  | cons first others ih =>
      have tail := ih fun part hp => each part (List.mem_cons_of_mem first hp)
      have head := each first List.mem_cons_self
      cases others with
      | nil =>
          rw [List.intercalate_singleton]
          exact head rest last
      | cons second others =>
          rw [List.intercalate_cons_cons, List.append_assoc, allRead_append, allRead_append]
          refine ⟨?_, between _, tail⟩
          rw [spell_append, List.append_assoc]
          exact head _ (stop _)

theorem allRead_flatMap {α : Type} {f : α → List Piece} {xs : List α}
    (each : ∀ x ∈ xs, ∀ rest, AllRead (f x) rest) (rest : List Char) :
    AllRead (xs.flatMap f) rest := by
  induction xs with
  | nil => exact trivial
  | cons x xs ih =>
      rw [List.flatMap_cons, allRead_append]
      exact ⟨each x List.mem_cons_self _, ih fun y hy => each y (List.mem_cons_of_mem x hy)⟩

theorem allRead_number {spelling : String} {rest : List Char}
    (h : Declaration.isNumber spelling = true) (stop : Stops rest) :
    AllRead (number spelling) rest := by
  have next : ∀ c ∈ rest.head?, Lexer.continuesNumber c = false := fun c hc => (stop c hc).2
  unfold Declaration.isNumber at h
  unfold number
  generalize spelling.toList = spelled at h ⊢
  cases spelled with
  | nil => cases h
  | cons sign digits =>
      -- The minus of a negative number is a token of its own.
      by_cases minus : sign = '-'
      · subst minus
        exact ⟨reads_mark (by decide) _, reads_number h next, trivial⟩
      · have unsigned : ∀ rest, sign :: digits ≠ '-' :: rest := by
          rintro rest ⟨⟩
          exact minus rfl
        simp only at h ⊢
        exact ⟨reads_number h next, trivial⟩

theorem allRead_dotted {parts : List (List Char)} {rest : List Char}
    (h : parts.all Lexer.isIdentifier = true) (stop : Stops rest) :
    AllRead (dotted parts) rest := by
  have point : ∀ tail : List Char, ∀ c ∈ ('.' :: tail).head?, Lexer.continuesWord c = false := by
    intro tail c hc
    obtain rfl : '.' = c := by simpa using hc
    exact (Lexer.stopper_ends (by decide)).1
  -- Behind a part comes either the text that follows or the point before the next part.
  have others : ∀ parts : List (List Char), parts.all Lexer.isIdentifier = true →
      AllRead (parts.flatMap fun part => [mark '.', word (String.ofList part)]) rest ∧
        ∀ c ∈ (spell (parts.flatMap fun part => [mark '.', word (String.ofList part)]) ++
          rest).head?, Lexer.continuesWord c = false := by
    intro parts
    induction parts with
    | nil => exact fun _ => ⟨trivial, fun c hc => (stop c hc).1⟩
    | cons part parts ih =>
        intro h
        rw [List.all_cons, Bool.and_eq_true] at h
        obtain ⟨tail, next⟩ := ih h.2
        refine ⟨⟨?_, reads_word (by simpa using h.1) next, tail⟩, point _⟩
        refine reads_point ?_
        cases part with
        | nil => cases h.1
        | cons first part =>
            have starts : Lexer.startsWord first = true := (Bool.and_eq_true_iff.1 h.1).1
            have := (Lexer.startsWord_apart starts).2.2.2.1
            simpa using this
  cases parts with
  | nil => exact trivial
  | cons first parts =>
      rw [List.all_cons, Bool.and_eq_true] at h
      obtain ⟨tail, next⟩ := others parts h.2
      exact ⟨reads_word (by simpa using h.1) next, tail⟩

theorem allRead_name {head : Bool} {text : String} {rest : List Char}
    (h : Declaration.isReferenceName head text = true) (stop : Stops rest) :
    AllRead (name text) rest := by
  unfold Declaration.isReferenceName at h
  unfold name
  split at h
  · cases h
  · rename_i first others hs
    simp only [Bool.and_eq_true] at h
    rw [hs]
    refine allRead_dotted ?_ stop
    rw [List.all_cons, h.1.1.1, h.1.1.2]
    rfl

theorem startsWord_of_startsName {c : Char} (h : Declaration.startsName c = true) :
    Lexer.startsWord c = true := by
  simp only [Declaration.startsName, Lexer.startsWord, Bool.or_eq_true] at h ⊢
  rcases h with (alpha | under) | dollar
  · have small : c.toNat < 128 := by
      have range : (decide (c.val ≥ 'A'.val ∧ c.val ≤ 'Z'.val) ||
          (decide (c.val ≥ 'a'.val) && decide (c.val ≤ 'z'.val))) = true := alpha
      simp only [Bool.or_eq_true, Bool.and_eq_true, decide_eq_true_eq,
        UInt32.le_iff_toNat_le] at range
      have : c.toNat ≤ 122 := by
        rcases range with h | h
        · exact Nat.le_trans h.2 (by decide)
        · exact h.2
      omega
    exact .inl (.inl (by rw [Text.isAlphabetic, if_pos small]; exact alpha))
  · exact .inl (.inr under)
  · exact .inr dollar

theorem continuesWord_of_continuesName {c : Char} (h : Declaration.continuesName c = true) :
    Lexer.continuesWord c = true := by
  simp only [Declaration.continuesName, Char.isAlphanum, Bool.or_eq_true] at h
  rcases h with ((alpha | digit) | under) | dollar
  · have starts : Lexer.startsWord c = true :=
      startsWord_of_startsName (by simp [Declaration.startsName, alpha])
    simp only [Lexer.startsWord, Lexer.continuesWord, Text.isAlphanumeric, Bool.or_eq_true]
      at starts ⊢
    exact starts.imp_left (Or.imp_left .inl)
  · have small : c.toNat < 128 := by
      have range := digit
      simp only [Char.isDigit, Bool.and_eq_true, decide_eq_true_eq, UInt32.le_iff_toNat_le]
        at range
      have : c.toNat ≤ 57 := range.2
      omega
    simp [Lexer.continuesWord, Text.isAlphanumeric, Text.isNumeric, small, digit]
  · simp [Lexer.continuesWord, under]
  · simp [Lexer.continuesWord, dollar]

/-- A name that needs no quotes is an identifier. -/
theorem isIdentifier_of_not_needsQuotes {name : String} (h : Declaration.needsQuotes name = false) :
    Lexer.isIdentifier name.toList = true := by
  unfold Declaration.needsQuotes at h
  cases hn : name.toList with
  | nil => simp [hn] at h
  | cons first others =>
      rw [hn] at h
      simp only [Bool.not_eq_eq_eq_not, Bool.not_false, Bool.and_eq_true, List.all_eq_true] at h
      rw [Lexer.isIdentifier, startsWord_of_startsName h.1, Bool.true_and, List.all_eq_true]
      exact fun c hc => continuesWord_of_continuesName (h.2 c hc)

theorem reads_property {name : String} {rest : List Char} (stop : Stops rest) :
    (property name).Reads rest := by
  unfold property
  split
  · exact reads_text name rest
  · rename_i plain
    exact reads_word_stops (isIdentifier_of_not_needsQuotes (by simpa using plain)) stop

theorem allRead_comment (level : Nat) (doc : Option String) (rest : List Char) :
    AllRead (comment level doc) rest := by
  cases doc with
  | none => exact trivial
  | some text =>
      refine ⟨?_, reads_doc level text _, reads_gap rfl _, trivial⟩
      intro c hc
      exact Declaration.blank_of_mem_indentation hc

theorem allRead_modifier {text : String} (present : Bool)
    (h : Lexer.isIdentifier text.toList = true)
    (rest : List Char) : AllRead (modifier present text) rest := by
  cases present with
  | false => exact trivial
  | true => exact ⟨reads_word_stops h (stops_cons (by decide) _), reads_gap rfl _, trivial⟩

theorem reads_indentation (level : Nat) (rest : List Char) : (gap (indentation level)).Reads rest :=
  fun _ => Declaration.blank_of_mem_indentation

theorem allRead_group {wanted : Nat} {type : TypeExpr} {pieces : List Piece} {rest : List Char}
    (h : ∀ tail, Stops tail → AllRead pieces tail) (stop : Stops rest) :
    AllRead (group wanted type pieces) rest := by
  unfold group
  split
  · rw [allRead_cons, allRead_append]
    exact ⟨reads_mark (by decide) _, h _ (stops_cons (by decide) _), reads_mark (by decide) _,
      trivial⟩
  · exact h rest stop

/-- A sign between two types, with its blanks. -/
theorem allRead_sign {sign : Char} (h : sign ∈ Lexer.marks) (rest : List Char) :
    AllRead [gap [' '], mark sign, gap [' ']] rest :=
  ⟨reads_gap rfl _, reads_mark h _, reads_gap rfl _, trivial⟩

/-- A word between two types, with its blanks. -/
theorem allRead_operator {name : String} (h : Lexer.isIdentifier name.toList = true)
    (rest : List Char) : AllRead [gap [' '], word name, gap [' ']] rest :=
  ⟨reads_gap rfl _, reads_word_stops h (stops_cons (by decide) _), reads_gap rfl _, trivial⟩

theorem isIdentifier_keyword (word : Keyword) : Lexer.isIdentifier word.name.toList = true :=
  Lexer.isIdentifier_fixedWord (by cases word <;> decide)

theorem isIdentifier_boolean (value : Bool) :
    Lexer.isIdentifier (if value then "true" else "false").toList = true :=
  Lexer.isIdentifier_fixedWord (by cases value <;> decide)

end Piece

/-! ### Types -/

theorem Member.allRead_pieces_of_types {m : Member} {level : Nat} {rest : List Char}
    (legible : m.isLegible = true)
    (types : ∀ t ∈ m.types, t.isLegible false = true → ∀ tail, Stops tail →
      AllRead (t.pieces level) tail) :
    AllRead (m.pieces level) rest := by
  have readonly : Lexer.isIdentifier "readonly".toList = true :=
    Lexer.isIdentifier_fixedWord (by decide)
  have closing : ∀ tail, AllRead [mark ';', gap ['\n']] tail :=
    fun tail => ⟨reads_mark (by decide) _, reads_gap rfl _, trivial⟩
  have colon : ∀ tail, AllRead [mark ':', gap [' ']] tail :=
    fun tail => ⟨reads_mark (by decide) _, reads_gap rfl _, trivial⟩
  cases m with
  | property name type isOptional isReadonly doc =>
      have inside := types type (by simp [Member.types]) legible
      have question : ∀ tail, AllRead (if isOptional then [mark '?'] else []) tail := by
        intro tail
        cases isOptional with
        | false => exact trivial
        | true => exact ⟨reads_mark (by decide) _, trivial⟩
      simp only [Member.pieces, allRead_append, and_assoc]
      refine ⟨allRead_comment _ _ _, ⟨reads_indentation _ _, trivial⟩,
        allRead_modifier _ readonly _, ⟨?_, trivial⟩, question _, colon _,
        inside _ (stops_cons (by decide) _), closing _⟩
      refine reads_property ?_
      cases isOptional <;> exact stops_cons (by decide) _
  | index key keyType value isReadonly doc =>
      simp only [Member.isLegible, Bool.and_eq_true] at legible
      obtain ⟨⟨hkey, hk⟩, hv⟩ := legible
      have before := types keyType (by simp [Member.types]) hk
      have behind := types value (by simp [Member.types]) hv
      have opening : ∀ tail, AllRead [mark '[', word key, mark ':', gap [' ']] tail := by
        intro tail
        exact ⟨reads_mark (by decide) _, reads_word_stops hkey (stops_cons (by decide) _), colon _⟩
      have middle : ∀ tail, AllRead [mark ']', mark ':', gap [' ']] tail :=
        fun tail => ⟨reads_mark (by decide) _, colon _⟩
      simp only [Member.pieces, allRead_append, and_assoc]
      exact ⟨allRead_comment _ _ _, ⟨reads_indentation _ _, trivial⟩, allRead_modifier _ readonly _,
        opening _, before _ (stops_cons (by decide) _), middle _,
        behind _ (stops_cons (by decide) _), closing _⟩

/-- Types between separators are read if each type is. -/
theorem TypeExpr.allRead_several {ts : List TypeExpr} {level wanted : Nat} {separator : List Piece}
    {rest : List Char} (between : ∀ tail, AllRead separator tail)
    (stops : ∀ tail, Stops (spell separator ++ tail))
    (each : ∀ t ∈ ts, ∀ tail, Stops tail → AllRead (t.pieces level) tail) (last : Stops rest) :
    AllRead (separator.intercalate (ts.map (TypeExpr.grouped level wanted))) rest := by
  refine allRead_intercalate between stops ?_ last
  intro part hp
  obtain ⟨t, ht, rfl⟩ := List.mem_map.1 hp
  intro tail stop
  exact allRead_group (each t ht) stop

/-- The pieces of a type that a text can say are read as what they are. -/
theorem TypeExpr.allRead_pieces {t : TypeExpr} {head : Bool} {level : Nat} {rest : List Char}
    (legible : t.isLegible head = true) (stop : Stops rest) : AllRead (t.pieces level) rest := by
  -- A word or a number ends where the next character stops it, so each part is read in front of what
  -- is printed behind it.
  induction t using TypeExpr.induct generalizing head level rest with
  | keyword word => exact ⟨reads_word_stops (isIdentifier_keyword word) stop, trivial⟩
  | string text => exact ⟨reads_text text rest, trivial⟩
  | number spelling => exact allRead_number legible stop
  | boolean value => exact ⟨reads_word_stops (isIdentifier_boolean value) stop, trivial⟩
  | reference name args ih =>
      simp only [TypeExpr.isLegible, TypeExpr.areLegible_eq_all, Bool.and_eq_true,
        List.all_eq_true] at legible
      obtain ⟨hname, hargs⟩ := legible
      cases args with
      | nil => exact allRead_name hname stop
      | cons first others =>
          simp only [TypeExpr.pieces, TypeExpr.piecesAll_eq_map, allRead_append, and_assoc]
          exact ⟨allRead_name hname (stops_cons (by decide) _), ⟨reads_mark (by decide) _, trivial⟩,
            allRead_several allRead_comma (fun _ => stops_cons (by decide) _)
              (fun t ht _ => ih t ht (hargs t ht)) (stops_cons (by decide) _),
            reads_mark (by decide) _, trivial⟩
  | array element ih =>
      simp only [TypeExpr.pieces, allRead_append]
      exact ⟨allRead_group (fun _ => ih legible) (stops_cons (by decide) _),
        reads_mark (by decide) _, reads_mark (by decide) _, trivial⟩
  | tuple items ih inner =>
      have each : ∀ t ∈ items, ∀ tail, Stops tail → AllRead (t.pieces level) tail := by
        simp only [TypeExpr.isLegible, TypeExpr.areLegibleItems_eq_all, List.all_eq_true] at legible
        intro t ht tail stop
        rcases TypeExpr.isLegibleItem_cases (legible t ht) with plain | ⟨element, rfl, inside⟩
        · exact ih t ht plain stop
        · exact ⟨reads_ellipsis _, allRead_group (fun _ => inner element ht inside) stop⟩
      simp only [TypeExpr.pieces, TypeExpr.piecesAll_eq_map, allRead_cons, allRead_append]
      exact ⟨reads_mark (by decide) _,
        allRead_several allRead_comma (fun _ => stops_cons (by decide) _) each
          (stops_cons (by decide) _),
        reads_mark (by decide) _, trivial⟩
  | rest element => cases legible
  | union alternatives ih =>
      simp only [TypeExpr.isLegible, TypeExpr.areLegible_eq_all, Bool.and_eq_true,
        List.all_eq_true] at legible
      rw [TypeExpr.pieces, TypeExpr.piecesAll_eq_map]
      exact allRead_several allRead_bar (fun _ => stops_cons (by decide) _)
        (fun t ht _ => ih t ht (legible.2 t ht)) stop
  | intersection parts ih =>
      simp only [TypeExpr.isLegible, TypeExpr.areLegible_eq_all, Bool.and_eq_true,
        List.all_eq_true] at legible
      rw [TypeExpr.pieces, TypeExpr.piecesAll_eq_map]
      exact allRead_several allRead_ampersand (fun _ => stops_cons (by decide) _)
        (fun t ht _ => ih t ht (legible.2 t ht)) stop
  | object members ih =>
      simp only [TypeExpr.isLegible, Member.areLegible_eq_all, List.all_eq_true] at legible
      have all : ∀ rest, AllRead (members.flatMap (Member.pieces (level + 1))) rest :=
        allRead_flatMap fun m hm rest =>
          Member.allRead_pieces_of_types (legible m hm) fun t ht legible _ => ih m hm t ht legible
      cases members with
      | nil => exact ⟨reads_mark (by decide) _, reads_mark (by decide) _, trivial⟩
      | cons first others =>
          simp only [TypeExpr.pieces, Member.piecesAll_eq_flatMap, allRead_append, and_assoc]
          exact ⟨⟨reads_mark (by decide) _, reads_gap rfl _, trivial⟩, all _,
            reads_indentation _ _, reads_mark (by decide) _, trivial⟩
  | keyOf operand ih =>
      simp only [TypeExpr.pieces, allRead_append]
      have keyword : Lexer.isIdentifier "keyof".toList = true :=
        Lexer.isIdentifier_fixedWord (by decide)
      exact ⟨⟨reads_word_stops keyword (stops_cons (by decide) _), reads_gap rfl _, trivial⟩,
        allRead_group (fun _ => ih legible) stop⟩
  | conditional check bound whenTrue whenFalse ihc ihb iht ihf =>
      simp only [TypeExpr.isLegible, Bool.and_eq_true] at legible
      obtain ⟨⟨⟨hc, hb⟩, ht⟩, hf⟩ := legible
      simp only [TypeExpr.pieces, allRead_append, and_assoc]
      exact ⟨allRead_group (fun _ => ihc hc) (stops_cons (by decide) _),
        allRead_operator (Lexer.isIdentifier_fixedWord (by decide)) _,
        allRead_group (fun _ => ihb hb) (stops_cons (by decide) _),
        allRead_sign (by decide) _, iht ht (stops_cons (by decide) _),
        allRead_sign (by decide) _, ihf hf stop⟩
  | access object index iho ihi =>
      simp only [TypeExpr.isLegible, Bool.and_eq_true] at legible
      simp only [TypeExpr.pieces, allRead_append, and_assoc]
      exact ⟨allRead_group (fun _ => iho legible.1) (stops_cons (by decide) _),
        ⟨reads_mark (by decide) _, trivial⟩, ihi legible.2 (stops_cons (by decide) _),
        reads_mark (by decide) _, trivial⟩

/-! ### Declarations -/

theorem TypeExpr.allRead_optionalPieces {type? : Option TypeExpr} {sign : Piece} {rest : List Char}
    (introduced : ∀ tail, AllRead [gap [' '], sign, gap [' ']] tail)
    (legible : type?.all (TypeExpr.isLegible false) = true) (stop : Stops rest) :
    AllRead (TypeExpr.optionalPieces sign type?) rest ∧
      Stops (spell (TypeExpr.optionalPieces sign type?) ++ rest) := by
  cases type? with
  | none => exact ⟨trivial, stop⟩
  | some type =>
      rw [TypeExpr.optionalPieces, allRead_append]
      exact ⟨⟨introduced _, TypeExpr.allRead_pieces legible stop⟩, stops_cons (by decide) _⟩

theorem TypeParam.allRead_pieces {param : TypeParam} {rest : List Char}
    (legible : param.isLegible = true) (stop : Stops rest) : AllRead param.pieces rest := by
  simp only [TypeParam.isLegible, Bool.and_eq_true] at legible
  obtain ⟨⟨hname, hbound⟩, hdefault⟩ := legible
  have assigned : '=' ∈ Lexer.marks := by decide
  have extended : Lexer.isIdentifier "extends".toList = true :=
    Lexer.isIdentifier_fixedWord (by decide)
  obtain ⟨last, behind⟩ := TypeExpr.allRead_optionalPieces (allRead_sign assigned) hdefault stop
  obtain ⟨middle, next⟩ :=
    TypeExpr.allRead_optionalPieces (allRead_operator extended) hbound behind
  rw [TypeParam.pieces, allRead_append, allRead_append]
  exact ⟨⟨⟨reads_word_stops hname next, trivial⟩, middle⟩, last⟩

namespace Declaration

theorem allRead_headPieces {declaration : Declaration} {rest : List Char} {head : Bool}
    (legible : declaration.isLegible head = true) (stop : Stops rest) :
    AllRead declaration.headPieces rest := by
  obtain ⟨name, doc, params, body, isExported⟩ := declaration
  simp only [isLegible, Bool.and_eq_true, List.all_eq_true] at legible
  obtain ⟨⟨hname, hparams⟩, -⟩ := legible
  rw [headPieces, allRead_append]
  cases params with
  | nil => exact ⟨⟨reads_word_stops hname stop, trivial⟩, trivial⟩
  | cons first others =>
      simp only [paramsPieces, allRead_cons, allRead_append]
      refine ⟨⟨reads_word_stops hname (stops_cons (by decide) _), trivial⟩,
        reads_mark (by decide) _, ?_, reads_mark (by decide) _, trivial⟩
      refine allRead_intercalate allRead_comma (fun _ => stops_cons (by decide) _) ?_
        (stops_cons (by decide) _)
      intro part hp
      obtain ⟨param, hparam, rfl⟩ := List.mem_map.1 hp
      intro tail stop
      exact TypeParam.allRead_pieces (hparams param hparam) stop

/-- The pieces of a declaration that a text can say are read as what they are. -/
theorem allRead_pieces {declaration : Declaration} {head : Bool}
    (legible : declaration.isLegible head = true) (rest : List Char) :
    AllRead declaration.pieces rest := by
  have named : ∀ tail, AllRead declaration.headPieces (' ' :: tail) :=
    fun tail => allRead_headPieces legible (stops_cons (by decide) tail)
  obtain ⟨name, doc, params, body, isExported⟩ := declaration
  simp only [isLegible, Bool.and_eq_true] at legible
  have legible := legible.2
  have keyword : ∀ {name : String} tail, name ∈ Lexer.fixedWords →
      AllRead [word name, gap [' ']] tail := by
    intro name tail h
    have identifier := Lexer.isIdentifier_fixedWord h
    exact ⟨reads_word_stops identifier (stops_cons (by decide) _), reads_gap rfl _, trivial⟩
  simp only [pieces, statementPieces, allRead_append]
  have exported : Lexer.isIdentifier "export".toList = true :=
    Lexer.isIdentifier_fixedWord (by decide)
  refine ⟨allRead_comment _ _ _, allRead_modifier _ exported _, ?_⟩
  cases body with
  | «interface» bases members =>
      simp only [Body.isLegible, Bool.and_eq_true, List.all_eq_true] at legible
      have extended : ∀ tail, AllRead (basesPieces bases) (' ' :: tail) := by
        intro tail
        cases bases with
        | nil => exact trivial
        | cons first others =>
            rw [basesPieces, allRead_append]
            exact ⟨allRead_operator (Lexer.isIdentifier_fixedWord (by decide)) _,
              TypeExpr.allRead_several allRead_comma (fun _ => stops_cons (by decide) _)
                (fun t ht _ => TypeExpr.allRead_pieces (legible.1 t ht))
                (stops_cons (by decide) _)⟩
      have object : (TypeExpr.object members).isLegible false = true := by
        simpa [TypeExpr.isLegible] using legible.2
      have body : ∀ tail, AllRead ((TypeExpr.object members).pieces 0) ('\n' :: tail) :=
        fun tail => TypeExpr.allRead_pieces object (stops_cons (by decide) _)
      -- With bases or without, a blank stands behind the head.
      have opening : ∀ tail, AllRead
          (headPieces ⟨name, doc, params, .interface bases members, isExported⟩)
          (spell (basesPieces bases) ++ ' ' :: tail) := by
        intro tail
        cases bases with
        | nil => exact named _
        | cons first others => exact named _
      simp only [allRead_append, and_assoc]
      exact ⟨keyword _ (by decide), opening _, extended _, ⟨reads_gap rfl _, trivial⟩, body _,
        reads_gap rfl _, trivial⟩
  | «alias» type =>
      simp only [allRead_append, and_assoc]
      exact ⟨keyword _ (by decide), named _, allRead_sign (by decide) _,
        TypeExpr.allRead_pieces legible (stops_cons (by decide) _), reads_mark (by decide) _,
        reads_gap rfl _, trivial⟩

/-- The tokens of printed declarations are those of their pieces. -/
theorem tokens_print {declarations : List Declaration} {head : Bool}
    (legible : ∀ d ∈ declarations, d.isLegible head = true) :
    Lexer.tokens (print declarations) = .ok (place .first (piecesAll declarations)) := by
  have all : ∀ ds : List Declaration, (∀ d ∈ ds, d.isLegible head = true) →
      AllRead (piecesAll ds) [] := by
    intro ds
    induction ds with
    | nil => exact fun _ => trivial
    | cons first others ih =>
        intro h
        have head := fun rest => allRead_pieces (h first List.mem_cons_self) rest
        have tail := ih fun d hd => h d (List.mem_cons_of_mem first hd)
        unfold piecesAll at tail ⊢
        cases others with
        | nil => simpa using head []
        | cons second others =>
            rw [List.map_cons, List.map_cons, List.intercalate_cons_cons, List.append_assoc,
              allRead_append, allRead_append]
            exact ⟨head _, ⟨reads_gap rfl _, trivial⟩, tail⟩
  have found := tokensFrom_spell (all declarations legible) .first
  rw [List.append_nil] at found
  rw [Lexer.tokens, print_toList, found]
  simp [Lexer.tokensFrom, Except.map]

end Declaration

end HyperSchema
