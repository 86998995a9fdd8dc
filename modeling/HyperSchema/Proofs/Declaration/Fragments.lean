import HyperSchema.Proofs.Declaration.Grouping

/-!
# Fragments — the parts of printed types are read back

What stands inside a type, on the assumption that the types in it are read back:

* `Parser.read_separated` for lists with commas, and one lemma for each kind of list;
* `Parser.read_operands` for operands with an operator between them;
* `Parser.dotted_pieces` and `Parser.primary_number_pieces` for names and numbers;
* `Member.reread_of_types` and `Parser.members_pieces` for members.
-/

namespace HyperSchema

open Piece

/-! ## Separated lists -/

theorem Piece.intercalate_eq_flatMap (separator first : List Piece) (others : List (List Piece)) :
    separator.intercalate (first :: others) =
      first ++ others.flatMap fun part => separator ++ part := by
  induction others generalizing first with
  | nil => simp
  | cons second others ih =>
      rw [List.intercalate_cons_cons, ih, List.flatMap_cons, List.append_assoc, List.append_assoc]

/-- A list reader that reads a part and goes on behind a comma reads parts with commas between
them. -/
theorem Parser.read_separated {α β : Type}
    {read : Nat → List Token → Except Failure (List α × List Token)}
    {pieces : β → List Piece} {value : β → α} {parts : List β} {ending rest : List Token}
    (last : ∀ b ∈ parts, ∀ here fuel, 8 * (count (pieces b) + 1) ≤ fuel →
      read fuel (place here (pieces b) ++ ending) = .ok ([value b], rest))
    (more : ∀ b ∈ parts, ∀ here start line fuel behind others,
      8 * (count (pieces b) + 1) ≤ fuel + 1 →
      read fuel behind = .ok (others, rest) →
        read (fuel + 1) (place here (pieces b) ++ ⟨.mark ',', start, line⟩ :: behind) =
          .ok (value b :: others, rest))
    (nonempty : parts ≠ []) (here : Position) (fuel : Nat)
    (enough : 8 * (count (comma.intercalate (parts.map pieces)) + 1) ≤ fuel) :
    read fuel (place here (comma.intercalate (parts.map pieces)) ++ ending) =
      .ok (parts.map value, rest) := by
  induction parts generalizing here fuel with
  | nil => exact (nonempty rfl).elim
  | cons first others ih =>
      cases others with
      | nil =>
          simp only [List.map_cons, List.map_nil, List.intercalate_singleton] at enough ⊢
          exact last first List.mem_cons_self here fuel enough
      | cons second others =>
          have tail := ih (fun b hb => last b (List.mem_cons_of_mem first hb))
            (fun b hb => more b (List.mem_cons_of_mem first hb)) (List.cons_ne_nil second others)
          rw [List.map_cons, List.map_cons, List.intercalate_cons_cons, ← List.map_cons] at enough ⊢
          simp only [comma, count_append, count_mark, count_gap, count_nil] at enough
          simp only [comma, place_append, place_mark, place_gap, List.append_assoc,
            List.cons_append, List.nil_append]
          obtain ⟨fuel, rfl⟩ : ∃ n, fuel = n + 1 := ⟨fuel - 1, by omega⟩
          refine more first List.mem_cons_self _ _ _ fuel _ _ (by omega) ?_
          exact tail _ _ (by simp only [comma]; omega)

section Lists

variable {ts : List TypeExpr} {level : Nat}

theorem Parser.arguments_pieces
    (each : ∀ t ∈ ts, t.Reread 0 (t.grouped level 0)) (nonempty : ts ≠ [])
    {here start : Position} {line fuel : Nat} {rest : List Token}
    (enough : 8 * (count (comma.intercalate (ts.map (TypeExpr.grouped level 0))) + 1) ≤ fuel) :
    arguments fuel (place here (comma.intercalate (ts.map (TypeExpr.grouped level 0))) ++
        ⟨.mark '>', start, line⟩ :: rest) =
      .ok (ts.map (TypeExpr.mapDocs Declaration.reread), rest) := by
  refine read_separated ?_ ?_ nonempty _ _ enough
  · intro t ht here fuel hf
    obtain ⟨fuel, rfl⟩ : ∃ n, fuel = n + 1 := ⟨fuel - 1, by omega⟩
    exact arguments_last (each t ht here _ (.mark (by decide) _) fuel (by omega))
  · intro t ht here start line fuel behind others hf hr
    exact arguments_cons (each t ht here _ (.mark (by decide) _) fuel (by omega)) hr

section Operators

variable {wanted : Nat} {sign : Char} {separator : List Piece} {rest : List Token}
  {read : Nat → List Token → Except Parser.Failure (List TypeExpr × List Token)}

/-- A list reader that reads an operand behind an operator and goes on reads operands with that
operator before each. -/
theorem Parser.read_operands (shape : separator = [gap [' '], mark sign, gap [' ']])
    (other : .mark sign ∉ continuations wanted) (stop : Delimits wanted rest)
    (last : ∀ fuel, read (fuel + 1) rest = .ok ([], rest))
    (more : ∀ {fuel start line tokens behind next others},
      reader wanted fuel tokens = .ok (next, behind) → read fuel behind = .ok (others, rest) →
        read (fuel + 1) (⟨.mark sign, start, line⟩ :: tokens) = .ok (next :: others, rest))
    (each : ∀ t ∈ ts, t.Reread wanted (t.grouped level wanted)) (here : Position) :
    Delimits wanted
        (place here ((ts.map (TypeExpr.grouped level wanted)).flatMap (separator ++ ·)) ++ rest) ∧
      ∀ fuel, 8 * count ((ts.map (TypeExpr.grouped level wanted)).flatMap (separator ++ ·)) < fuel →
        read fuel
            (place here ((ts.map (TypeExpr.grouped level wanted)).flatMap (separator ++ ·)) ++ rest) =
          .ok (ts.map (TypeExpr.mapDocs Declaration.reread), rest) := by
  subst shape
  induction ts generalizing here with
  | nil =>
      refine ⟨stop, ?_⟩
      intro fuel hf
      obtain ⟨fuel, rfl⟩ : ∃ n, fuel = n + 1 := ⟨fuel - 1, by omega⟩
      exact last fuel
  | cons t ts ih =>
      have tail := ih fun t ht => each t (List.mem_cons_of_mem _ ht)
      simp only [List.map_cons, List.flatMap_cons, place_append, place_mark, place_gap,
        List.append_assoc, List.cons_append, List.nil_append, count_append, count_mark, count_gap]
        at tail ⊢
      refine ⟨.mark other _, ?_⟩
      intro fuel hf
      obtain ⟨fuel, rfl⟩ : ∃ n, fuel = n + 1 := ⟨fuel - 1, by omega⟩
      obtain ⟨next, read⟩ := tail _
      exact more (each t List.mem_cons_self _ _ next fuel (by omega)) (read fuel (by omega))

/-- Operands with operators between them are read as the first and a list of the others. -/
theorem Parser.operands_pieces (wanted : Nat) (sign : Char) {first : TypeExpr}
    (shape : separator = [gap [' '], mark sign, gap [' ']])
    (other : .mark sign ∉ continuations wanted) (stop : Delimits wanted rest)
    (last : ∀ fuel, read (fuel + 1) rest = .ok ([], rest))
    (more : ∀ {fuel start line tokens behind next others},
      reader wanted fuel tokens = .ok (next, behind) → read fuel behind = .ok (others, rest) →
        read (fuel + 1) (⟨.mark sign, start, line⟩ :: tokens) = .ok (next :: others, rest))
    (each : ∀ t ∈ first :: ts, t.Reread wanted (t.grouped level wanted)) (here : Position)
    (weak : wanted ≤ 4) (fuel : Nat) (enough : 8 * count (separator.intercalate
      ((first :: ts).map (TypeExpr.grouped level wanted))) + (5 - wanted) ≤ fuel) :
    ∃ behind,
      reader wanted fuel (place here (separator.intercalate
          ((first :: ts).map (TypeExpr.grouped level wanted))) ++ rest) =
        .ok (first.mapDocs Declaration.reread, behind) ∧
      read fuel behind = .ok (ts.map (TypeExpr.mapDocs Declaration.reread), rest) := by
  rw [List.map_cons, intercalate_eq_flatMap] at enough ⊢
  simp only [count_append, place_append, List.append_assoc] at enough ⊢
  obtain ⟨next, tail⟩ := read_operands shape other stop last more
    (fun t ht => each t (List.mem_cons_of_mem first ht))
    (here.advanceAll (spell (first.grouped level wanted)))
  exact ⟨_, each first List.mem_cons_self here _ next fuel (by omega), tail fuel (by omega)⟩

end Operators

/-- An item of a tuple is read back in its place. -/
def TypeExpr.ItemReread (t : TypeExpr) (pieces : List Piece) : Prop :=
  ∀ here rest, Parser.Delimits 0 rest →
    Parser.eatMark ']' (place here pieces ++ rest) = none ∧
      ∀ fuel, 8 * count pieces + 6 ≤ fuel →
        Parser.tupleItem fuel (place here pieces ++ rest) = .ok (t.mapDocs Declaration.reread, rest)

theorem Parser.tupleItems_pieces (each : ∀ t ∈ ts, t.ItemReread (t.grouped level 0))
    (nonempty : ts ≠ []) {here start : Position} {line fuel : Nat} {rest : List Token}
    (enough : 8 * (count (comma.intercalate (ts.map (TypeExpr.grouped level 0))) + 1) ≤ fuel) :
    tupleItems fuel (place here (comma.intercalate (ts.map (TypeExpr.grouped level 0))) ++
        ⟨.mark ']', start, line⟩ :: rest) =
      .ok (ts.map (TypeExpr.mapDocs Declaration.reread), rest) := by
  refine read_separated ?_ ?_ nonempty _ _ enough
  · intro t ht here fuel hf
    obtain ⟨fuel, rfl⟩ : ∃ n, fuel = n + 1 := ⟨fuel - 1, by omega⟩
    obtain ⟨opened, read⟩ := each t ht here (⟨.mark ']', start, line⟩ :: rest) (.mark (by decide) _)
    exact tupleItems_last opened (read fuel (by omega))
  · intro t ht here start line fuel behind others hf hr
    obtain ⟨opened, read⟩ :=
      each t ht here (⟨.mark ',', start, line⟩ :: behind) (.mark (by decide) _)
    exact tupleItems_cons opened (read fuel (by omega)) hr

end Lists

/-! ## Names and numbers -/

namespace Parser

theorem plainWord?_keyword (word : Keyword) : plainWord? word.name = some (.keyword word) := by
  cases word <;> rfl

theorem plainWord?_boolean (value : Bool) :
    plainWord? (if value then "true" else "false") = some (.boolean value) := by
  cases value <;> rfl

theorem plainWord?_eq_none {word : String} (h : word ∉ Declaration.reservedNames) :
    plainWord? word = none := by
  simp only [Declaration.reservedNames, List.mem_append, List.mem_map, List.mem_cons,
    List.not_mem_nil, or_false, not_or, not_exists, not_and] at h
  obtain ⟨keywords, isTrue, isFalse⟩ := h
  have unknown : Keyword.ofName? word = none := by
    rw [Keyword.ofName?, List.find?_eq_none]
    intro keyword hk he
    exact keywords keyword hk (by simpa using he)
  rw [plainWord?, unknown]
  simp only [if_neg isTrue, if_neg isFalse]

theorem dotted_pieces {parts : List (List Char)} {rest : List Token}
    (stop : eatMark '.' rest = none)
    (here : Position) (acc : List Char) :
    dotted (String.ofList acc)
        (place here (parts.flatMap fun part => [mark '.', word (String.ofList part)]) ++ rest) =
      .ok (String.ofList (['.'].intercalate (acc :: parts)), rest) := by
  induction parts generalizing here acc with
  | nil =>
      simp only [List.flatMap_nil, place_nil, List.nil_append, List.intercalate_singleton]
      -- Nothing that follows looks like another part.
      cases rest with
      | nil => rw [dotted]; nofun
      | cons token rest =>
          rw [dotted]
          rintro start line rest ⟨⟩
          rw [eatMark_mark] at stop
          cases stop
  | cons part parts ih =>
      have joined : String.ofList acc ++ "." ++ String.ofList part =
          String.ofList (acc ++ ['.'] ++ part) := by
        rw [← String.toList_inj]
        simp
      simp only [List.flatMap_cons, List.cons_append, List.nil_append, place_mark, place_word,
        dotted, joined]
      rw [ih]
      cases parts <;> simp

theorem primary_number_pieces {spelling : String} {here : Position} {fuel : Nat}
    {rest : List Token} :
    primary (fuel + 1) (place here (Piece.number spelling) ++ rest) =
      .ok (.number spelling, rest) := by
  unfold Piece.number
  split
  · rename_i digits h
    have whole : "-" ++ String.ofList digits = spelling := by
      rw [← String.toList_inj, h]
      simp
    rw [← whole]
    exact primary_minus
  · rename_i digits h
    rw [Piece.digits, String.ofList_toList]
    exact primary_number

end Parser

/-! ## Members -/

namespace Parser

theorem line_advanceAll {text : List Char} (h : '\n' ∉ text) (here : Position) :
    (here.advanceAll text).line = here.line := by
  induction text generalizing here with
  | nil => rfl
  | cons c text ih =>
      rw [List.mem_cons, not_or] at h
      rw [Position.advanceAll_cons, ih h.2, Position.advance, if_neg (Ne.symm h.1)]

/-- The comment in front of a token on the next line is that token's documentation. -/
theorem takeDoc_comment {level : Nat} {doc : Option String} {here : Position} {next : Token}
    {rest : List Token} (plain : isDoc next = false)
    (line : next.start.line = (here.advanceAll (spell (comment level doc))).line) :
    takeDoc (place here (comment level doc) ++ next :: rest) =
      (doc.map Declaration.reread, next :: rest) := by
  have other : ∀ token rest, isDoc token = false →
      takeDoc (token :: rest) = (none, token :: rest) := by
    intro token rest h
    obtain ⟨lexeme, start, line⟩ := token
    cases lexeme with
    | doc text => cases h
    | _ => rfl
  cases doc with
  | none => exact other next rest plain
  | some text =>
      have behind : next.start.line ≤
          ((here.advanceAll (indentation level)).advanceAll
            (Declaration.docSpelling level text)).line + 1 := by
        rw [line]
        simp [comment, Piece.doc, Position.advanceAll_append, Position.advance]
      simp only [comment, Piece.doc, place_gap, place_token, place_nil, List.cons_append,
        List.nil_append, takeDoc, plain, if_pos behind]
      rfl

/-- The comment and the modifier of a member, in front of its next token. -/
theorem takeDoc_member {level : Nat} {doc : Option String} {isReadonly : Bool}
    {here there : Position} {next : Token} {rest : List Token}
    (hp : there = (here.advanceAll (spell (comment level doc))).advanceAll (indentation level))
    (start : next.start = there.advanceAll (spell (modifier isReadonly "readonly")))
    (plain : isDoc next = false ∧ eatMark '}' (next :: rest) = none ∧ endsName next = false)
    (absent : takeReadonly (next :: rest) = (false, next :: rest))
    {P : Option String → List Token → Prop}
    (read : ∀ behind, takeReadonly behind = (isReadonly, next :: rest) →
      P (doc.map Declaration.reread) behind) :
    ∃ found behind,
      takeDoc (place here (comment level doc) ++
        (place there (modifier isReadonly "readonly") ++ next :: rest)) = (found, behind) ∧
      eatMark '}' behind = none ∧ P found behind := by
  -- The indentation has no line feed, so the next token stands on the line behind the comment.
  have line : there.line = (here.advanceAll (spell (comment level doc))).line := by
    rw [hp, line_advanceAll (Declaration.feed_not_mem_indentation level)]
  obtain ⟨noDoc, opened, goesOn⟩ := plain
  cases isReadonly with
  | false =>
      refine ⟨_, next :: rest, takeDoc_comment noDoc ?_, opened, read _ absent⟩
      rw [start, ← line]
      rfl
  | true =>
      simp only [modifier, if_true, place_word, place_gap, place_nil, List.cons_append,
        List.nil_append]
      refine ⟨_, _, takeDoc_comment rfl line, rfl, read _ ?_⟩
      simp only [takeReadonly, eatWord_word, goesOn]
      rfl

theorem count_property (name : String) (others : List Piece) :
    count (property name :: others) = count others + 1 := by
  unfold property
  split <;> rfl

theorem place_property (name : String) (here : Position) :
    ∃ token there, token.start = here ∧ (token.lexeme = .text name ∨ token.lexeme = .word name) ∧
      ∀ others, place here (property name :: others) = token :: place there others := by
  unfold property
  split
  · exact ⟨_, _, rfl, .inl rfl, fun _ => rfl⟩
  · exact ⟨_, _, rfl, .inr rfl, fun _ => rfl⟩

section Property

variable {name : String} {isOptional isReadonly : Bool} {here start : Position} {line : Nat}
  {token : Token} {rest : List Token}

theorem name_plain (lexeme : token.lexeme = .text name ∨ token.lexeme = .word name) :
    isDoc token = false ∧ eatMark '}' (token :: rest) = none ∧ endsName token = false := by
  obtain ⟨found, start, line⟩ := token
  rcases lexeme with rfl | rfl
  · exact ⟨rfl, rfl, rfl⟩
  · exact ⟨rfl, rfl, rfl⟩

/-- A property may have the name of the modifier. -/
theorem takeReadonly_name (lexeme : token.lexeme = .text name ∨ token.lexeme = .word name) :
    takeReadonly (token :: (place here (if isOptional then [mark '?'] else []) ++
        ⟨.mark ':', start, line⟩ :: rest)) =
      (false, token :: (place here (if isOptional then [mark '?'] else []) ++
        ⟨.mark ':', start, line⟩ :: rest)) := by
  obtain ⟨found, tokenStart, tokenLine⟩ := token
  rcases lexeme with rfl | rfl
  · rfl
  · unfold takeReadonly eatWord
    by_cases h : name = "readonly"
    · cases isOptional <;> simp only [if_pos h] <;> rfl
    · simp only [if_neg h]

theorem member_property_pieces {fuel : Nat} {doc : Option String} {found : TypeExpr}
    {tokens behind : List Token} (lexeme : token.lexeme = .text name ∨ token.lexeme = .word name)
    (hr : takeReadonly tokens =
      (isReadonly, token :: (place here (if isOptional then [mark '?'] else []) ++
        ⟨.mark ':', start, line⟩ :: behind)))
    (ht : type fuel behind = .ok (found, rest)) :
    member (fuel + 1) doc tokens = .ok (.property name found isOptional isReadonly doc, rest) := by
  obtain ⟨lexeme', tokenStart, tokenLine⟩ := token
  have named : ∀ rest, propertyName (⟨lexeme', tokenStart, tokenLine⟩ :: rest) = .ok (name, rest) ∧
      eatMark '[' (⟨lexeme', tokenStart, tokenLine⟩ :: rest) = none := by
    intro rest
    rcases lexeme with rfl | rfl
    · exact ⟨rfl, rfl⟩
    · exact ⟨rfl, rfl⟩
  cases isOptional with
  | false => exact member_property hr (named _).2 (named _).1 rfl ht
  | true => exact member_property hr (named _).2 (named _).1 rfl ht

end Property

end Parser

/-- A member is read back from its pieces, up to the semicolon. -/
def Member.Reread (level : Nat) (m : Member) : Prop :=
  ∀ here rest, ∃ doc behind,
    Parser.takeDoc (place here (m.pieces level) ++ rest) = (doc, behind) ∧
    Parser.eatMark '}' behind = none ∧
    ∀ fuel, 8 * count (m.pieces level) ≤ fuel → ∃ start line,
      Parser.member fuel doc behind =
        .ok (m.mapDocs Declaration.reread, ⟨.mark ';', start, line⟩ :: rest)

theorem Member.reread_of_types {m : Member} {level : Nat}
    (types : ∀ t ∈ m.types, t.Reread 0 (t.pieces level)) : m.Reread level := by
  intro here rest
  cases m with
  | property name type isOptional isReadonly doc =>
      have read := types type (by simp [Member.types])
      simp only [Member.pieces, place_append, place_gap, List.append_assoc, List.cons_append,
        List.nil_append]
      -- Quoted or not, the name is one token, and it starts behind the modifier.
      generalize hs : ((here.advanceAll (spell (comment level doc))).advanceAll
        (indentation level)).advanceAll (spell (modifier isReadonly "readonly")) = start
      obtain ⟨token, there, ht, lexeme, placed⟩ := Parser.place_property name start
      simp only [placed, place_append, place_mark, place_gap, List.append_assoc, List.cons_append]
      refine Parser.takeDoc_member rfl (ht.trans hs.symm) (Parser.name_plain lexeme)
        (Parser.takeReadonly_name lexeme) ?_
      intro behind hr fuel hf
      simp only [count_append, Parser.count_property, count_mark, count_gap] at hf
      obtain ⟨fuel, rfl⟩ : ∃ n, fuel = n + 1 := ⟨fuel - 1, by omega⟩
      exact ⟨_, _, Parser.member_property_pieces lexeme hr
        (read _ _ (.mark (by decide) _) fuel (by omega))⟩
  | index key keyType value isReadonly doc =>
      have readKey := types keyType (by simp [Member.types])
      have readValue := types value (by simp [Member.types])
      simp only [Member.pieces, place_append, place_mark, place_word, place_gap, place_nil,
        List.append_assoc, List.cons_append, List.nil_append]
      refine Parser.takeDoc_member rfl rfl ⟨rfl, rfl, rfl⟩ rfl ?_
      intro behind hr fuel hf
      simp only [count_append, count_mark, count_word, count_gap] at hf
      obtain ⟨fuel, rfl⟩ : ∃ n, fuel = n + 1 := ⟨fuel - 1, by omega⟩
      exact ⟨_, _, Parser.member_index hr (readKey _ _ (.mark (by decide) _) fuel (by omega))
        (readValue _ _ (.mark (by decide) _) fuel (by omega))⟩

theorem Member.count_pieces_pos (m : Member) (level : Nat) : 0 < count (m.pieces level) := by
  cases m with
  | property name type isOptional isReadonly doc =>
      simp only [Member.pieces, count_append, count_mark]
      omega
  | index key keyType value isReadonly doc =>
      simp only [Member.pieces, count_append, count_mark]
      omega

theorem Parser.members_pieces {ms : List Member} {level : Nat} (each : ∀ m ∈ ms, m.Reread level)
    {start : Position} {line : Nat} {rest : List Token} (here : Position) (fuel : Nat)
    (enough : 8 * (count (ms.flatMap (Member.pieces level)) + 1) ≤ fuel) :
    members fuel
        (place here (ms.flatMap (Member.pieces level)) ++ ⟨.mark '}', start, line⟩ :: rest) =
      .ok (ms.map (Member.mapDocs Declaration.reread), rest) := by
  induction ms generalizing here fuel with
  | nil =>
      obtain ⟨fuel, rfl⟩ : ∃ n, fuel = n + 1 := ⟨fuel - 1, by omega⟩
      exact members_nil start line
  | cons m ms ih =>
      have tail := ih fun m hm => each m (List.mem_cons_of_mem _ hm)
      simp only [List.flatMap_cons, place_append, count_append, List.append_assoc] at enough ⊢
      obtain ⟨doc, behind, hd, opened, read⟩ := each m List.mem_cons_self here
        (place (here.advanceAll (spell (m.pieces level))) (ms.flatMap (Member.pieces level)) ++
          ⟨.mark '}', start, line⟩ :: rest)
      obtain ⟨fuel, rfl⟩ : ∃ n, fuel = n + 1 := ⟨fuel - 1, by omega⟩
      obtain ⟨s, l, first⟩ := read fuel (by omega)
      -- A member has at least one token, so it pays for the step to the next.
      have positive := m.count_pieces_pos level
      exact members_cons hd opened first (tail _ _ (by omega))

end HyperSchema
