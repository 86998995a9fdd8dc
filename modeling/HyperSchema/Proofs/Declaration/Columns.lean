import HyperSchema.Proofs.Declaration.Image

/-!
# Columns — the parser reads lines only

Where a token stands matters to a comment in front of it, and there only the line counts.  This file
defines:

* `Token.atMargin` and `Parser.atMargin`, tokens moved to the first column of their lines;
* `Parser.aligned`, what a reader gives, with the tokens behind it at the margin;
* `Parser.Aligns`, what all readers of types do with some fuel: they read tokens at the margin as
  the tokens themselves, and `Parser.aligns`, by induction on the fuel with one lemma for each
  reader;
* `Parser.declarations_eq_ok_iff_of_atMargin`: tokens that are alike at the margin are the same
  declarations.
-/

namespace HyperSchema

/-- A token at the first column of its line. -/
def Token.atMargin (token : Token) : Token :=
  { token with start := ⟨token.start.line, 1⟩ }

namespace Parser

def atMargin (tokens : List Token) : List Token :=
  tokens.map Token.atMargin

def Failure.atMargin (failure : Failure) : Failure :=
  ⟨failure.fault, Parser.atMargin failure.rest⟩

variable {α β : Type} {fuel : Nat}

/-- An outcome whose value and failure are moved. -/
def aligned (move : α → α) : Except Failure α → Except Failure α
  | .ok found => .ok (move found)
  | .error failure => .error failure.atMargin

/-- What was read, with the tokens behind it at the margin. -/
def behind (read : α × List Token) : α × List Token :=
  (read.1, atMargin read.2)

@[simp] theorem behind_mk (found : α) (rest : List Token) :
    behind (found, rest) = (found, atMargin rest) := rfl

@[simp] theorem atMargin_cons (token : Token) (rest : List Token) :
    atMargin (token :: rest) = token.atMargin :: atMargin rest := rfl

/-- Two steps in a row are aligned if each is. -/
theorem aligned_bind {move : α → α} {move' : β → β} {read : Except Failure α}
    {next next' : α → Except Failure β} (h : ∀ a, next' (move a) = aligned move' (next a)) :
    (aligned move read >>= next') = aligned move' (read >>= next) := by
  cases read with
  | error failure => rfl
  | ok a => exact h a

/-! ## Single tokens -/

theorem eatMark_atMargin (sign : Char) (tokens : List Token) :
    eatMark sign (atMargin tokens) = (eatMark sign tokens).map atMargin := by
  cases tokens with
  | nil => rfl
  | cons token rest =>
      rcases token with ⟨lexeme, start, line⟩
      cases lexeme with
      | mark found =>
          show (if found = sign then some (atMargin rest) else none) =
            (if found = sign then some rest else none).map atMargin
          split <;> rfl
      | _ => rfl

theorem eatWord_atMargin (word : String) (tokens : List Token) :
    eatWord word (atMargin tokens) = (eatWord word tokens).map atMargin := by
  cases tokens with
  | nil => rfl
  | cons token rest =>
      rcases token with ⟨lexeme, start, line⟩
      cases lexeme with
      | word found =>
          show (if found = word then some (atMargin rest) else none) =
            (if found = word then some rest else none).map atMargin
          split <;> rfl
      | _ => rfl

theorem skipMark_atMargin (sign : Char) (tokens : List Token) :
    skipMark sign (atMargin tokens) = atMargin (skipMark sign tokens) := by
  rw [skipMark, skipMark, eatMark_atMargin]
  cases eatMark sign tokens <;> rfl

theorem skipWord_atMargin (word : String) (tokens : List Token) :
    (eatWord word (atMargin tokens)).getD (atMargin tokens) =
      atMargin ((eatWord word tokens).getD tokens) := by
  rw [eatWord_atMargin]
  cases eatWord word tokens <;> rfl

theorem expectMark_atMargin (sign : Char) (tokens : List Token) :
    expectMark sign (atMargin tokens) = aligned atMargin (expectMark sign tokens) := by
  rw [expectMark, expectMark, eatMark_atMargin]
  cases eatMark sign tokens <;> rfl

theorem identifier_atMargin (tokens : List Token) :
    identifier (atMargin tokens) = aligned behind (identifier tokens) := by
  cases tokens with
  | nil => rfl
  | cons token rest =>
      rcases token with ⟨lexeme, start, line⟩
      cases lexeme <;> rfl

theorem propertyName_atMargin (tokens : List Token) :
    propertyName (atMargin tokens) = aligned behind (propertyName tokens) := by
  cases tokens with
  | nil => rfl
  | cons token rest =>
      rcases token with ⟨lexeme, start, line⟩
      cases lexeme <;> rfl

theorem memberEnd_atMargin (tokens : List Token) :
    memberEnd (atMargin tokens) = aligned atMargin (memberEnd tokens) := by
  rw [memberEnd, memberEnd, eatMark_atMargin, eatMark_atMargin, eatMark_atMargin]
  cases eatMark ';' tokens with
  | some rest => rfl
  | none =>
      cases eatMark ',' tokens with
      | some rest => rfl
      | none => cases eatMark '}' tokens <;> rfl

theorem takeReadonly_atMargin (tokens : List Token) :
    takeReadonly (atMargin tokens) = behind (takeReadonly tokens) := by
  rw [takeReadonly, takeReadonly, eatWord_atMargin]
  cases eatWord "readonly" tokens with
  | none => rfl
  | some rest =>
      cases rest with
      | nil => rfl
      | cons next rest =>
          show (if endsName next then (false, atMargin tokens)
              else (true, atMargin (next :: rest))) =
            behind (if endsName next then (false, tokens) else (true, next :: rest))
          split <;> rfl

/-- Of the places of two tokens, a comment compares the lines. -/
theorem takeDoc_atMargin (tokens : List Token) :
    takeDoc (atMargin tokens) = behind (takeDoc tokens) := by
  induction tokens with
  | nil => rfl
  | cons token rest ih =>
      rcases token with ⟨lexeme, start, line⟩
      cases lexeme with
      | doc text =>
          cases rest with
          | nil => rfl
          | cons next rest =>
              show (if isDoc next then takeDoc (atMargin (next :: rest))
                  else (if next.start.line ≤ line + 1 then some text else none,
                    atMargin (next :: rest))) =
                behind (if isDoc next then takeDoc (next :: rest)
                  else (if next.start.line ≤ line + 1 then some text else none, next :: rest))
              split
              · exact ih
              · rfl
      | _ => rfl

theorem dotted_atMargin (name : String) (tokens : List Token) :
    dotted name (atMargin tokens) = aligned behind (dotted name tokens) := by
  fun_induction dotted name tokens with
  | case1 name start line part start' line' rest ih =>
      rw [← ih]
      rfl
  | case2 name start line rest other =>
      cases rest with
      | nil => rfl
      | cons token rest =>
          rcases token with ⟨lexeme, start', line'⟩
          cases lexeme with
          | word part => exact absurd rfl (other part start' line' rest)
          | _ => rfl
  | case3 name tokens other =>
      cases tokens with
      | nil => rfl
      | cons token rest =>
          rcases token with ⟨lexeme, start, line⟩
          cases lexeme with
          | mark sign =>
              -- The mark is no point, or the reader would not have ended here.
              have ended (start : Position) (line : Nat) (rest : List Token) :
                  dotted name (⟨.mark sign, start, line⟩ :: rest) =
                    .ok (name, ⟨.mark sign, start, line⟩ :: rest) := by
                rw [dotted]
                rintro start line rest ⟨⟩
                exact other _ _ _ rfl
              exact ended ⟨start.line, 1⟩ line (atMargin rest)
          | _ => rfl

/-! ## Types -/

/-- With some fuel, the readers of types read tokens at the margin as the tokens themselves. -/
structure Aligns (fuel : Nat) : Prop where
  type (tokens : List Token) : type fuel (atMargin tokens) = aligned behind (type fuel tokens)
  union (tokens : List Token) : union fuel (atMargin tokens) = aligned behind (union fuel tokens)
  unionRest (tokens : List Token) :
    unionRest fuel (atMargin tokens) = aligned behind (unionRest fuel tokens)
  intersection (tokens : List Token) :
    intersection fuel (atMargin tokens) = aligned behind (intersection fuel tokens)
  intersectionRest (tokens : List Token) :
    intersectionRest fuel (atMargin tokens) = aligned behind (intersectionRest fuel tokens)
  keyed (tokens : List Token) : keyed fuel (atMargin tokens) = aligned behind (keyed fuel tokens)
  indexed (tokens : List Token) :
    indexed fuel (atMargin tokens) = aligned behind (indexed fuel tokens)
  indices (base : TypeExpr) (tokens : List Token) :
    indices fuel base (atMargin tokens) = aligned behind (indices fuel base tokens)
  primary (tokens : List Token) :
    primary fuel (atMargin tokens) = aligned behind (primary fuel tokens)
  arguments (tokens : List Token) :
    arguments fuel (atMargin tokens) = aligned behind (arguments fuel tokens)
  tupleItems (tokens : List Token) :
    tupleItems fuel (atMargin tokens) = aligned behind (tupleItems fuel tokens)
  tupleItem (tokens : List Token) :
    tupleItem fuel (atMargin tokens) = aligned behind (tupleItem fuel tokens)
  members (tokens : List Token) :
    members fuel (atMargin tokens) = aligned behind (members fuel tokens)
  member (doc : Option String) (tokens : List Token) :
    member fuel doc (atMargin tokens) = aligned behind (member fuel doc tokens)

section Readers

variable (h : Aligns fuel) (tokens : List Token)

include h

theorem Aligns.type_succ :
    Parser.type (fuel + 1) (atMargin tokens) = aligned behind (Parser.type (fuel + 1) tokens) := by
  rw [Parser.type, Parser.type, h.union]
  refine aligned_bind ?_
  rintro ⟨check, rest⟩
  simp only [behind_mk, eatWord_atMargin]
  cases eatWord "extends" rest with
  | none => rfl
  | some rest =>
      simp only [Option.map_some, h.union]
      refine aligned_bind ?_
      rintro ⟨bound, rest⟩
      simp only [behind_mk, expectMark_atMargin]
      refine aligned_bind ?_
      intro rest
      rw [h.type]
      refine aligned_bind ?_
      rintro ⟨whenTrue, rest⟩
      simp only [behind_mk, expectMark_atMargin]
      refine aligned_bind ?_
      intro rest
      rw [h.type]
      refine aligned_bind ?_
      rintro ⟨whenFalse, rest⟩
      rfl

theorem Aligns.union_succ :
    Parser.union (fuel + 1) (atMargin tokens) =
      aligned behind (Parser.union (fuel + 1) tokens) := by
  rw [Parser.union, Parser.union, skipMark_atMargin, h.intersection]
  refine aligned_bind ?_
  rintro ⟨first, rest⟩
  simp only [behind_mk, h.unionRest]
  refine aligned_bind ?_
  rintro ⟨others, rest⟩
  rfl

theorem Aligns.unionRest_succ :
    Parser.unionRest (fuel + 1) (atMargin tokens) =
      aligned behind (Parser.unionRest (fuel + 1) tokens) := by
  rw [Parser.unionRest, Parser.unionRest, eatMark_atMargin]
  cases eatMark '|' tokens with
  | none => rfl
  | some rest =>
      simp only [Option.map_some, h.intersection]
      refine aligned_bind ?_
      rintro ⟨next, rest⟩
      simp only [behind_mk, h.unionRest]
      refine aligned_bind ?_
      rintro ⟨others, rest⟩
      rfl

theorem Aligns.intersection_succ :
    Parser.intersection (fuel + 1) (atMargin tokens) =
      aligned behind (Parser.intersection (fuel + 1) tokens) := by
  rw [Parser.intersection, Parser.intersection, skipMark_atMargin, h.keyed]
  refine aligned_bind ?_
  rintro ⟨first, rest⟩
  simp only [behind_mk, h.intersectionRest]
  refine aligned_bind ?_
  rintro ⟨others, rest⟩
  rfl

theorem Aligns.intersectionRest_succ :
    Parser.intersectionRest (fuel + 1) (atMargin tokens) =
      aligned behind (Parser.intersectionRest (fuel + 1) tokens) := by
  rw [Parser.intersectionRest, Parser.intersectionRest, eatMark_atMargin]
  cases eatMark '&' tokens with
  | none => rfl
  | some rest =>
      simp only [Option.map_some, h.keyed]
      refine aligned_bind ?_
      rintro ⟨next, rest⟩
      simp only [behind_mk, h.intersectionRest]
      refine aligned_bind ?_
      rintro ⟨others, rest⟩
      rfl

theorem Aligns.keyed_succ :
    Parser.keyed (fuel + 1) (atMargin tokens) =
      aligned behind (Parser.keyed (fuel + 1) tokens) := by
  rw [Parser.keyed, Parser.keyed, eatWord_atMargin]
  cases eatWord "keyof" tokens with
  | none => exact h.indexed tokens
  | some rest =>
      simp only [Option.map_some, h.keyed]
      refine aligned_bind ?_
      rintro ⟨operand, rest⟩
      rfl

theorem Aligns.indexed_succ :
    Parser.indexed (fuel + 1) (atMargin tokens) =
      aligned behind (Parser.indexed (fuel + 1) tokens) := by
  rw [Parser.indexed, Parser.indexed, h.primary]
  refine aligned_bind ?_
  rintro ⟨base, rest⟩
  exact h.indices base rest

theorem Aligns.indices_succ (base : TypeExpr) :
    Parser.indices (fuel + 1) base (atMargin tokens) =
      aligned behind (Parser.indices (fuel + 1) base tokens) := by
  rw [Parser.indices, Parser.indices, eatMark_atMargin]
  cases eatMark '[' tokens with
  | none => rfl
  | some rest =>
      simp only [Option.map_some, eatMark_atMargin]
      cases eatMark ']' rest with
      | some rest => exact h.indices (.array base) rest
      | none =>
          simp only [Option.map_none, h.type]
          refine aligned_bind ?_
          rintro ⟨index, rest⟩
          simp only [behind_mk, expectMark_atMargin]
          refine aligned_bind ?_
          intro rest
          exact h.indices (.access base index) rest

theorem Aligns.arguments_succ :
    Parser.arguments (fuel + 1) (atMargin tokens) =
      aligned behind (Parser.arguments (fuel + 1) tokens) := by
  rw [Parser.arguments, Parser.arguments, h.type]
  refine aligned_bind ?_
  rintro ⟨first, rest⟩
  simp only [behind_mk, eatMark_atMargin]
  cases eatMark ',' rest with
  | some rest =>
      simp only [Option.map_some, h.arguments]
      refine aligned_bind ?_
      rintro ⟨others, rest⟩
      rfl
  | none =>
      simp only [Option.map_none, expectMark_atMargin]
      refine aligned_bind ?_
      intro rest
      rfl

theorem Aligns.tupleItems_succ :
    Parser.tupleItems (fuel + 1) (atMargin tokens) =
      aligned behind (Parser.tupleItems (fuel + 1) tokens) := by
  rw [Parser.tupleItems, Parser.tupleItems, eatMark_atMargin]
  cases eatMark ']' tokens with
  | some rest => rfl
  | none =>
      simp only [Option.map_none, h.tupleItem]
      refine aligned_bind ?_
      rintro ⟨first, rest⟩
      simp only [behind_mk, eatMark_atMargin]
      cases eatMark ',' rest with
      | some rest =>
          simp only [Option.map_some, h.tupleItems]
          refine aligned_bind ?_
          rintro ⟨others, rest⟩
          rfl
      | none =>
          simp only [Option.map_none, expectMark_atMargin]
          refine aligned_bind ?_
          intro rest
          rfl

theorem Aligns.tupleItem_succ :
    Parser.tupleItem (fuel + 1) (atMargin tokens) =
      aligned behind (Parser.tupleItem (fuel + 1) tokens) := by
  cases tokens with
  | nil => exact h.type []
  | cons token rest =>
      rcases token with ⟨lexeme, start, line⟩
      cases lexeme with
      | ellipsis =>
          show (Parser.type fuel (atMargin rest) >>= fun read =>
              .ok (TypeExpr.rest read.1, read.2)) =
            aligned behind (Parser.type fuel rest >>= fun read =>
              .ok (TypeExpr.rest read.1, read.2))
          rw [h.type]
          refine aligned_bind ?_
          intro read
          rfl
      | _ => exact h.type _

theorem Aligns.primary_succ :
    Parser.primary (fuel + 1) (atMargin tokens) =
      aligned behind (Parser.primary (fuel + 1) tokens) := by
  cases tokens with
  | nil => rfl
  | cons token rest =>
      rcases token with ⟨lexeme, start, line⟩
      cases lexeme with
      | word word =>
          rw [atMargin_cons, Token.atMargin]
          cases plain : plainWord? word with
          | some t =>
              rw [primary_plain plain, primary_plain plain]
              rfl
          | none =>
              rw [primary_word plain, primary_word plain, dotted_atMargin]
              refine aligned_bind ?_
              rintro ⟨name, rest⟩
              simp only [behind_mk, eatMark_atMargin]
              cases eatMark '<' rest with
              | none => rfl
              | some rest =>
                  simp only [Option.map_some, h.arguments]
                  refine aligned_bind ?_
                  intro args
                  rfl
      | mark sign =>
          unfold Parser.primary
          rw [atMargin_cons, Token.atMargin]
          dsimp only
          split
          · rw [h.type]
            refine aligned_bind ?_
            rintro ⟨inner, rest⟩
            simp only [behind_mk, expectMark_atMargin]
            refine aligned_bind ?_
            intro rest
            rfl
          · rw [h.members]
            refine aligned_bind ?_
            intro read
            rfl
          · rw [h.tupleItems]
            refine aligned_bind ?_
            intro read
            rfl
          · cases rest with
            | nil => rfl
            | cons next rest =>
                rcases next with ⟨lexeme, start, line⟩
                cases lexeme <;> rfl
          -- Literals and words are no signs.
          · rename_i apart
            cases apart
          · rename_i apart
            cases apart
          · rename_i apart
            cases apart
          · rfl
      | _ => rfl

theorem Aligns.member_succ (doc : Option String) :
    Parser.member (fuel + 1) doc (atMargin tokens) =
      aligned behind (Parser.member (fuel + 1) doc tokens) := by
  rw [Parser.member, Parser.member, takeReadonly_atMargin]
  rcases takeReadonly tokens with ⟨isReadonly, rest⟩
  -- Every step reads the same at the margin, up to what it leaves; so it is one step at a time.
  simp only [behind_mk, eatMark_atMargin]
  cases eatMark '[' rest with
  | some rest =>
      simp only [Option.map_some, identifier_atMargin]
      refine aligned_bind ?_
      rintro ⟨key, rest⟩
      simp only [behind_mk, expectMark_atMargin]
      refine aligned_bind ?_
      intro rest
      rw [h.type]
      refine aligned_bind ?_
      rintro ⟨keyType, rest⟩
      simp only [behind_mk, expectMark_atMargin]
      refine aligned_bind ?_
      intro rest
      rw [expectMark_atMargin]
      refine aligned_bind ?_
      intro rest
      rw [h.type]
      refine aligned_bind ?_
      rintro ⟨value, rest⟩
      rfl
  | none =>
      simp only [Option.map_none, propertyName_atMargin]
      refine aligned_bind ?_
      rintro ⟨name, rest⟩
      simp only [behind_mk, eatMark_atMargin, Option.isSome_map, skipMark_atMargin,
        expectMark_atMargin]
      refine aligned_bind ?_
      intro rest
      rw [h.type]
      refine aligned_bind ?_
      rintro ⟨found, rest⟩
      rfl

theorem Aligns.members_succ :
    Parser.members (fuel + 1) (atMargin tokens) =
      aligned behind (Parser.members (fuel + 1) tokens) := by
  rw [Parser.members, Parser.members, takeDoc_atMargin]
  rcases takeDoc tokens with ⟨doc, rest⟩
  simp only [behind_mk, eatMark_atMargin]
  cases eatMark '}' rest with
  | some rest => rfl
  | none =>
      simp only [Option.map_none, h.member]
      refine aligned_bind ?_
      rintro ⟨first, rest⟩
      simp only [behind_mk, memberEnd_atMargin]
      refine aligned_bind ?_
      intro rest
      rw [h.members]
      refine aligned_bind ?_
      rintro ⟨others, rest⟩
      rfl

end Readers

theorem aligns (fuel : Nat) : Aligns fuel := by
  induction fuel with
  | zero =>
      constructor
      all_goals
        intros
        rfl
  | succ fuel h =>
      exact {
        type := h.type_succ
        union := h.union_succ
        unionRest := h.unionRest_succ
        intersection := h.intersection_succ
        intersectionRest := h.intersectionRest_succ
        keyed := h.keyed_succ
        indexed := h.indexed_succ
        indices := fun base tokens => h.indices_succ tokens base
        primary := h.primary_succ
        arguments := h.arguments_succ
        tupleItems := h.tupleItems_succ
        tupleItem := h.tupleItem_succ
        members := h.members_succ
        member := fun doc tokens => h.member_succ tokens doc }

/-! ## Declarations -/

section Declarations

variable (fuel) (tokens : List Token)

theorem optional_atMargin {read : List Token → Except Failure (TypeExpr × List Token)}
    (h : ∀ tokens, read (atMargin tokens) = aligned behind (read tokens))
    (eaten : Option (List Token)) :
    optional read (eaten.map atMargin) (atMargin tokens) =
      aligned behind (optional read eaten tokens) := by
  cases eaten with
  | none => rfl
  | some rest =>
      simp only [optional, Option.map_some, h]
      refine aligned_bind ?_
      rintro ⟨found, rest⟩
      rfl

theorem typeParam_atMargin :
    typeParam fuel (atMargin tokens) = aligned behind (typeParam fuel tokens) := by
  rw [typeParam, typeParam, identifier_atMargin]
  refine aligned_bind ?_
  rintro ⟨name, rest⟩
  simp only [behind_mk, eatWord_atMargin, optional_atMargin rest (aligns fuel).union]
  refine aligned_bind ?_
  rintro ⟨bound, rest⟩
  simp only [behind_mk, eatMark_atMargin, optional_atMargin rest (aligns fuel).type]
  refine aligned_bind ?_
  rintro ⟨default, rest⟩
  rfl

theorem typeParamList_atMargin :
    typeParamList fuel (atMargin tokens) = aligned behind (typeParamList fuel tokens) := by
  induction fuel generalizing tokens with
  | zero => rfl
  | succ fuel ih =>
      rw [typeParamList, typeParamList, eatMark_atMargin]
      cases eatMark '>' tokens with
      | some rest => rfl
      | none =>
          simp only [Option.map_none, typeParam_atMargin]
          refine aligned_bind ?_
          rintro ⟨first, rest⟩
          simp only [behind_mk, eatMark_atMargin]
          cases eatMark ',' rest with
          | some rest =>
              simp only [Option.map_some, ih]
              refine aligned_bind ?_
              rintro ⟨others, rest⟩
              rfl
          | none =>
              simp only [Option.map_none, expectMark_atMargin]
              refine aligned_bind ?_
              intro rest
              rfl

theorem typeParams_atMargin :
    typeParams fuel (atMargin tokens) = aligned behind (typeParams fuel tokens) := by
  rw [typeParams, typeParams, eatMark_atMargin]
  cases eatMark '<' tokens with
  | none => rfl
  | some rest => exact typeParamList_atMargin fuel rest

theorem bases_atMargin : bases fuel (atMargin tokens) = aligned behind (bases fuel tokens) := by
  induction fuel generalizing tokens with
  | zero => rfl
  | succ fuel ih =>
      rw [bases, bases, (aligns fuel).indexed]
      refine aligned_bind ?_
      rintro ⟨first, rest⟩
      simp only [behind_mk, eatMark_atMargin]
      cases eatMark ',' rest with
      | none => rfl
      | some rest =>
          simp only [Option.map_some, ih]
          refine aligned_bind ?_
          rintro ⟨others, rest⟩
          rfl

variable (doc : Option String) (isExported : Bool)

theorem interfaceBody_atMargin :
    interfaceBody fuel doc isExported (atMargin tokens) =
      aligned behind (interfaceBody fuel doc isExported tokens) := by
  rw [interfaceBody, interfaceBody, identifier_atMargin]
  refine aligned_bind ?_
  rintro ⟨name, rest⟩
  simp only [behind_mk, typeParams_atMargin]
  refine aligned_bind ?_
  rintro ⟨params, rest⟩
  simp only [behind_mk, eatWord_atMargin]
  -- Both ways, with bases and without, end in the members.
  have object (extended : List TypeExpr) (rest : List Token) :
      (do
        let rest ← expectMark '{' (atMargin rest)
        let read ← members fuel rest
        .ok (Declaration.mk name doc params (.interface extended read.1) isExported, read.2)) =
      aligned behind (do
        let rest ← expectMark '{' rest
        let read ← members fuel rest
        .ok (Declaration.mk name doc params (.interface extended read.1) isExported, read.2)) := by
    rw [expectMark_atMargin]
    refine aligned_bind ?_
    intro rest
    rw [(aligns fuel).members]
    refine aligned_bind ?_
    intro read
    rfl
  cases eatWord "extends" rest with
  | none => exact object [] rest
  | some rest =>
      simp only [Option.map_some, bases_atMargin]
      refine aligned_bind ?_
      rintro ⟨extended, rest⟩
      exact object extended rest

theorem aliasBody_atMargin :
    aliasBody fuel doc isExported (atMargin tokens) =
      aligned behind (aliasBody fuel doc isExported tokens) := by
  rw [aliasBody, aliasBody, identifier_atMargin]
  refine aligned_bind ?_
  rintro ⟨name, rest⟩
  simp only [behind_mk, typeParams_atMargin]
  refine aligned_bind ?_
  rintro ⟨params, rest⟩
  simp only [behind_mk, expectMark_atMargin]
  refine aligned_bind ?_
  intro rest
  rw [(aligns fuel).type]
  refine aligned_bind ?_
  rintro ⟨found, rest⟩
  simp only [behind_mk, skipMark_atMargin]
  rfl

theorem declaration_atMargin :
    declaration fuel doc (atMargin tokens) = aligned behind (declaration fuel doc tokens) := by
  simp only [declaration, skipWord_atMargin]
  generalize (eatWord "declare" ((eatWord "export" tokens).getD tokens)).getD
    ((eatWord "export" tokens).getD tokens) = rest
  simp only [eatWord_atMargin, Option.isSome_map]
  cases eatWord "interface" rest with
  | some rest => exact interfaceBody_atMargin fuel rest doc _
  | none =>
      simp only [Option.map_none]
      cases eatWord "type" rest with
      | some rest => exact aliasBody_atMargin fuel rest doc _
      | none => rfl

theorem declarations_atMargin :
    declarations fuel (atMargin tokens) = aligned id (declarations fuel tokens) := by
  induction fuel generalizing tokens with
  | zero => rfl
  | succ fuel ih =>
      rw [declarations, declarations, takeDoc_atMargin]
      rcases takeDoc tokens with ⟨doc, rest⟩
      cases rest with
      | nil => rfl
      | cons token rest =>
          simp only [behind_mk, atMargin_cons]
          rw [← atMargin_cons, eatMark_atMargin]
          cases eatMark ';' (token :: rest) with
          | some rest => exact ih rest
          | none =>
              simp only [Option.map_none, declaration_atMargin]
              refine aligned_bind ?_
              rintro ⟨first, rest⟩
              simp only [behind_mk, ih]
              refine aligned_bind ?_
              intro others
              rfl

end Declarations

/-- Tokens that are alike at the margin are the same declarations. -/
theorem declarations_eq_ok_iff_of_atMargin {tokens others : List Token}
    (same : atMargin tokens = atMargin others) {found : List Declaration} :
    declarations (fuelFor tokens) tokens = .ok found ↔
      declarations (fuelFor others) others = .ok found := by
  have iff (fuel : Nat) (tokens : List Token) :
      declarations fuel (atMargin tokens) = .ok found ↔ declarations fuel tokens = .ok found := by
    rw [declarations_atMargin]
    cases declarations fuel tokens with
    | error failure => exact ⟨nofun, nofun⟩
    | ok read => exact Iff.rfl
  have length : tokens.length = others.length := by
    have moved := congrArg List.length same
    rwa [atMargin, atMargin, List.length_map, List.length_map] at moved
  rw [← iff, same, iff, fuelFor, fuelFor, length]

end Parser

end HyperSchema
