import HyperSchema.Declaration.Parser

/-!
# Reader — what a reader of types yields from what its parts yield

The readers of types form a ladder by binding strength, each step of which tries an operator and
else goes up.  This file defines:

* `Parser.reader`, the reader of each strength;
* `Parser.Delimits`, the tokens behind which no reader from a strength on reads further;
* `Parser.OpensType`, the tokens that no operator precedes;
* `Parser.Yields` and `Parser.Chains`, what readers give with all fuel above a bound;
* `Parser.Yields.lower`: what a reader yields is yielded by every reader below it.

Beside them stands one lemma for each rule of the grammar.
-/

namespace HyperSchema

namespace Parser

variable {fuel : Nat} {tokens rest : List Token} {start start' : Position} {line line' : Nat}

/-! ## Single tokens -/

@[simp] theorem eatMark_mark (sign : Char) (start : Position) (line : Nat) (rest : List Token) :
    eatMark sign (⟨.mark sign, start, line⟩ :: rest) = some rest :=
  if_pos rfl

@[simp] theorem eatWord_word (word : String) (start : Position) (line : Nat) (rest : List Token) :
    eatWord word (⟨.word word, start, line⟩ :: rest) = some rest :=
  if_pos rfl

theorem eatMark_eq_none {sign : Char} (h : ∀ token ∈ tokens.head?, token.lexeme ≠ .mark sign) :
    eatMark sign tokens = none := by
  cases tokens with
  | nil => rfl
  | cons token rest =>
      obtain ⟨lexeme, start, line⟩ := token
      have apart : lexeme ≠ .mark sign := h _ rfl
      cases lexeme with
      | mark found =>
          refine if_neg ?_
          rintro rfl
          exact apart rfl
      | _ => rfl

theorem eatWord_eq_none {word : String} (h : ∀ token ∈ tokens.head?, token.lexeme ≠ .word word) :
    eatWord word tokens = none := by
  cases tokens with
  | nil => rfl
  | cons token rest =>
      obtain ⟨lexeme, start, line⟩ := token
      have apart : lexeme ≠ .word word := h _ rfl
      cases lexeme with
      | word found =>
          refine if_neg ?_
          rintro rfl
          exact apart rfl
      | _ => rfl

@[simp] theorem expectMark_mark (sign : Char) (start : Position) (line : Nat) (rest : List Token) :
    expectMark sign (⟨.mark sign, start, line⟩ :: rest) = .ok rest := by
  rw [expectMark, eatMark_mark]

theorem skipMark_eq_self {sign : Char} (h : eatMark sign tokens = none) :
    skipMark sign tokens = tokens := by
  rw [skipMark, h]
  rfl

/-! ## What may stand in front of a type and behind it -/

/-- The lexemes that readers from a strength on take for more of the type in front of them. -/
def continuations (strength : Nat) : List Lexeme :=
  [.mark '.', .mark '<'] ++ (if strength ≤ 4 then [.mark '['] else []) ++
    (if strength ≤ 2 then [.mark '&'] else []) ++ (if strength ≤ 1 then [.mark '|'] else []) ++
    (if strength = 0 then [.word "extends"] else [])

/-- No reader from a strength on reads further. -/
def Delimits (strength : Nat) (rest : List Token) : Prop :=
  ∀ token ∈ rest.head?, token.lexeme ∉ continuations strength

theorem mem_continuations_of_le {a b : Nat} (h : a ≤ b) {lexeme : Lexeme}
    (hl : lexeme ∈ continuations b) : lexeme ∈ continuations a := by
  simp only [continuations, List.mem_append, List.mem_ite_nil_right, List.mem_singleton] at hl ⊢
  rcases hl with (((hl | ⟨hb, hl⟩) | ⟨hb, hl⟩) | ⟨hb, hl⟩) | ⟨hb, hl⟩
  · exact .inl (.inl (.inl (.inl hl)))
  · exact .inl (.inl (.inl (.inr ⟨by omega, hl⟩)))
  · exact .inl (.inl (.inr ⟨by omega, hl⟩))
  · exact .inl (.inr ⟨by omega, hl⟩)
  · exact .inr ⟨by omega, hl⟩

theorem Delimits.mono {a b : Nat} (h : Delimits a rest) (hab : a ≤ b) : Delimits b rest :=
  fun token ht hl => h token ht (mem_continuations_of_le hab hl)

theorem Delimits.cons {strength : Nat} {token : Token}
    (h : token.lexeme ∉ continuations strength) (rest : List Token) :
    Delimits strength (token :: rest) := by
  intro first hf
  obtain rfl : token = first := by simpa using hf
  exact h

theorem Delimits.mark {strength : Nat} {sign : Char} (h : .mark sign ∉ continuations strength)
    (rest : List Token) : Delimits strength (⟨.mark sign, start, line⟩ :: rest) :=
  .cons h rest

theorem Delimits.word {strength : Nat} {name : String} (h : .word name ∉ continuations strength)
    (rest : List Token) : Delimits strength (⟨.word name, start, line⟩ :: rest) :=
  .cons h rest

theorem Delimits.eatMark_eq_none {strength : Nat} {sign : Char} (h : Delimits strength rest)
    (hs : .mark sign ∈ continuations strength) : eatMark sign rest = none := by
  refine Parser.eatMark_eq_none ?_
  intro token ht he
  exact h token ht (he ▸ hs)

theorem Delimits.eatWord_eq_none (h : Delimits 0 rest) : eatWord "extends" rest = none := by
  refine Parser.eatWord_eq_none ?_
  intro token ht he
  exact h token ht (by rw [he]; decide)

/-- The lexemes with which a type starts if no operator precedes it. -/
def startsType : Lexeme → Bool
  | .mark sign => ['(', '{', '[', '-'].contains sign
  | .word _ => true
  | .text _ => true
  | .number _ => true
  | .ellipsis => false
  | .doc _ => false

/-- No operator of a union or an intersection precedes the tokens of a type. -/
def OpensType (tokens : List Token) : Prop :=
  ∃ token others, tokens = token :: others ∧ startsType token.lexeme = true

theorem OpensType.eatMark_eq_none {sign : Char} (h : OpensType tokens)
    (hs : startsType (.mark sign) = false) : eatMark sign tokens = none := by
  obtain ⟨token, others, rfl, starts⟩ := h
  refine Parser.eatMark_eq_none ?_
  intro first hf
  obtain rfl : token = first := by simpa using hf
  intro he
  rw [he, hs] at starts
  cases starts

/-! ## Rules -/

theorem type_plain {check : TypeExpr} (h : union fuel tokens = .ok (check, rest))
    (stop : eatWord "extends" rest = none) : type (fuel + 1) tokens = .ok (check, rest) := by
  rw [type, h]
  simp only [bind, Except.bind, stop]

theorem type_conditional {check bound whenTrue whenFalse : TypeExpr} {r₁ r₂ r₃ : List Token}
    {s₁ s₂ s₃ : Position} {l₁ l₂ l₃ : Nat}
    (hc : union fuel tokens = .ok (check, ⟨.word "extends", s₁, l₁⟩ :: r₁))
    (hb : union fuel r₁ = .ok (bound, ⟨.mark '?', s₂, l₂⟩ :: r₂))
    (ht : type fuel r₂ = .ok (whenTrue, ⟨.mark ':', s₃, l₃⟩ :: r₃))
    (hf : type fuel r₃ = .ok (whenFalse, rest)) :
    type (fuel + 1) tokens = .ok (.conditional check bound whenTrue whenFalse, rest) := by
  rw [type, hc]
  simp only [bind, Except.bind, eatWord_word, hb, expectMark_mark, ht, hf]

theorem union_of_rest {first : TypeExpr} {others : List TypeExpr} {behind : List Token}
    (opens : OpensType tokens) (h : intersection fuel tokens = .ok (first, behind))
    (hr : unionRest fuel behind = .ok (others, rest)) :
    union (fuel + 1) tokens = .ok (joinUnion first others, rest) := by
  rw [union, skipMark_eq_self (opens.eatMark_eq_none rfl), h]
  simp only [bind, Except.bind, hr]

theorem unionRest_nil (stop : eatMark '|' rest = none) :
    unionRest (fuel + 1) rest = .ok ([], rest) := by
  rw [unionRest, stop]

theorem unionRest_cons {next : TypeExpr} {others : List TypeExpr} {behind : List Token}
    (h : intersection fuel tokens = .ok (next, behind))
    (hr : unionRest fuel behind = .ok (others, rest)) :
    unionRest (fuel + 1) (⟨.mark '|', start, line⟩ :: tokens) = .ok (next :: others, rest) := by
  rw [unionRest, eatMark_mark]
  simp only [bind, Except.bind, h, hr]

theorem intersection_of_rest {first : TypeExpr} {others : List TypeExpr} {behind : List Token}
    (opens : OpensType tokens) (h : keyed fuel tokens = .ok (first, behind))
    (hr : intersectionRest fuel behind = .ok (others, rest)) :
    intersection (fuel + 1) tokens = .ok (joinIntersection first others, rest) := by
  rw [intersection, skipMark_eq_self (opens.eatMark_eq_none rfl), h]
  simp only [bind, Except.bind, hr]

theorem intersectionRest_nil (stop : eatMark '&' rest = none) :
    intersectionRest (fuel + 1) rest = .ok ([], rest) := by
  rw [intersectionRest, stop]

theorem intersectionRest_cons {next : TypeExpr} {others : List TypeExpr} {behind : List Token}
    (h : keyed fuel tokens = .ok (next, behind))
    (hr : intersectionRest fuel behind = .ok (others, rest)) :
    intersectionRest (fuel + 1) (⟨.mark '&', start, line⟩ :: tokens) =
      .ok (next :: others, rest) := by
  rw [intersectionRest, eatMark_mark]
  simp only [bind, Except.bind, h, hr]

theorem keyed_plain (h : eatWord "keyof" tokens = none) :
    keyed (fuel + 1) tokens = indexed fuel tokens := by
  rw [keyed, h]

theorem keyed_keyOf {operand : TypeExpr} (h : keyed fuel tokens = .ok (operand, rest)) :
    keyed (fuel + 1) (⟨.word "keyof", start, line⟩ :: tokens) = .ok (.keyOf operand, rest) := by
  rw [keyed, eatWord_word]
  simp only [bind, Except.bind, h]

theorem indexed_of_primary {base : TypeExpr} (h : primary fuel tokens = .ok (base, rest)) :
    indexed (fuel + 1) tokens = indices fuel base rest := by
  rw [indexed, h]
  rfl

theorem indices_nil {base : TypeExpr} (stop : eatMark '[' rest = none) :
    indices (fuel + 1) base rest = .ok (base, rest) := by
  rw [indices, stop]

theorem indices_array {base : TypeExpr} :
    indices (fuel + 1) base (⟨.mark '[', start, line⟩ :: ⟨.mark ']', start', line'⟩ :: rest) =
      indices fuel (.array base) rest := by
  rw [indices, eatMark_mark]
  simp only [eatMark_mark]

theorem indices_access {base index : TypeExpr} (opens : OpensType tokens)
    (h : type fuel tokens = .ok (index, ⟨.mark ']', start', line'⟩ :: rest)) :
    indices (fuel + 1) base (⟨.mark '[', start, line⟩ :: tokens) =
      indices fuel (.access base index) rest := by
  rw [indices, eatMark_mark]
  have unclosed : eatMark ']' tokens = none := opens.eatMark_eq_none rfl
  simp only [unclosed, bind, Except.bind, h, expectMark_mark]

/-! ### Types without signs in front or behind -/

theorem primary_group {inner : TypeExpr}
    (h : type fuel tokens = .ok (inner, ⟨.mark ')', start', line'⟩ :: rest)) :
    primary (fuel + 1) (⟨.mark '(', start, line⟩ :: tokens) = .ok (inner, rest) := by
  show (type fuel tokens >>= fun read =>
    expectMark ')' read.2 >>= fun rest => .ok (read.1, rest)) = _
  simp only [bind, Except.bind, h, expectMark_mark]

theorem primary_object {found : List Member} (h : members fuel tokens = .ok (found, rest)) :
    primary (fuel + 1) (⟨.mark '{', start, line⟩ :: tokens) = .ok (.object found, rest) := by
  show (members fuel tokens >>= fun read => .ok (TypeExpr.object read.1, read.2)) = _
  simp only [bind, Except.bind, h]

theorem primary_tuple {items : List TypeExpr} (h : tupleItems fuel tokens = .ok (items, rest)) :
    primary (fuel + 1) (⟨.mark '[', start, line⟩ :: tokens) = .ok (.tuple items, rest) := by
  show (tupleItems fuel tokens >>= fun read => .ok (TypeExpr.tuple read.1, read.2)) = _
  simp only [bind, Except.bind, h]

theorem primary_minus {spelling : String} :
    primary (fuel + 1) (⟨.mark '-', start, line⟩ :: ⟨.number spelling, start', line'⟩ :: rest) =
      .ok (.number ("-" ++ spelling), rest) :=
  rfl

theorem primary_number {spelling : String} :
    primary (fuel + 1) (⟨.number spelling, start, line⟩ :: rest) = .ok (.number spelling, rest) :=
  rfl

theorem primary_text {value : String} :
    primary (fuel + 1) (⟨.text value, start, line⟩ :: rest) = .ok (.string value, rest) :=
  rfl

/-- A word that is no type of its own is a name, behind which arguments may stand. -/
theorem primary_word {word : String} (free : plainWord? word = none) :
    primary (fuel + 1) (⟨.word word, start, line⟩ :: tokens) =
      dotted word tokens >>= fun read =>
        match eatMark '<' read.2 with
        | none => .ok (.reference read.1 [], read.2)
        | some rest =>
            arguments fuel rest >>= fun args => .ok (.reference read.1 args.1, args.2) := by
  -- The match cannot be rewritten under its binders, so the looked-up word is made a variable.
  unfold primary
  dsimp only
  generalize plainWord? word = found at free ⊢
  subst free
  rfl

theorem primary_plain {word : String} {plain : TypeExpr} (h : plainWord? word = some plain) :
    primary (fuel + 1) (⟨.word word, start, line⟩ :: rest) = .ok (plain, rest) := by
  unfold primary
  dsimp only
  rw [h]

theorem primary_named {word name : String} (free : plainWord? word = none)
    (h : dotted word tokens = .ok (name, rest)) (stop : eatMark '<' rest = none) :
    primary (fuel + 1) (⟨.word word, start, line⟩ :: tokens) = .ok (.reference name [], rest) := by
  rw [primary_word free, h]
  simp only [bind, Except.bind, stop]

theorem primary_applied {word name : String} {args : List TypeExpr} {behind : List Token}
    (free : plainWord? word = none)
    (h : dotted word tokens = .ok (name, ⟨.mark '<', start', line'⟩ :: behind))
    (ha : arguments fuel behind = .ok (args, rest)) :
    primary (fuel + 1) (⟨.word word, start, line⟩ :: tokens) =
      .ok (.reference name args, rest) := by
  rw [primary_word free, h]
  simp only [bind, Except.bind, eatMark_mark, ha]

theorem arguments_last {last : TypeExpr}
    (h : type fuel tokens = .ok (last, ⟨.mark '>', start, line⟩ :: rest)) :
    arguments (fuel + 1) tokens = .ok ([last], rest) := by
  have closed : eatMark ',' (⟨.mark '>', start, line⟩ :: rest) = none := rfl
  rw [arguments]
  simp only [bind, Except.bind, h, closed, expectMark_mark]

theorem arguments_cons {first : TypeExpr} {others : List TypeExpr} {behind : List Token}
    (h : type fuel tokens = .ok (first, ⟨.mark ',', start, line⟩ :: behind))
    (hr : arguments fuel behind = .ok (others, rest)) :
    arguments (fuel + 1) tokens = .ok (first :: others, rest) := by
  rw [arguments]
  simp only [bind, Except.bind, h, eatMark_mark, hr]

theorem tupleItems_nil :
    tupleItems (fuel + 1) (⟨.mark ']', start, line⟩ :: rest) = .ok ([], rest) := by
  rw [tupleItems, eatMark_mark]

theorem tupleItems_last {last : TypeExpr} (opened : eatMark ']' tokens = none)
    (h : tupleItem fuel tokens = .ok (last, ⟨.mark ']', start, line⟩ :: rest)) :
    tupleItems (fuel + 1) tokens = .ok ([last], rest) := by
  have closed : eatMark ',' (⟨.mark ']', start, line⟩ :: rest) = none := rfl
  rw [tupleItems, opened]
  simp only [bind, Except.bind, h, closed, expectMark_mark]

theorem tupleItems_cons {first : TypeExpr} {others : List TypeExpr} {behind : List Token}
    (opened : eatMark ']' tokens = none)
    (h : tupleItem fuel tokens = .ok (first, ⟨.mark ',', start, line⟩ :: behind))
    (hr : tupleItems fuel behind = .ok (others, rest)) :
    tupleItems (fuel + 1) tokens = .ok (first :: others, rest) := by
  rw [tupleItems, opened]
  simp only [bind, Except.bind, h, eatMark_mark, hr]

theorem tupleItem_plain (opens : OpensType tokens) :
    tupleItem (fuel + 1) tokens = type fuel tokens := by
  obtain ⟨⟨lexeme, start, line⟩, others, rfl, starts⟩ := opens
  cases lexeme with
  | ellipsis => cases starts
  | _ => rw [tupleItem]; rintro start line rest ⟨⟩

theorem tupleItem_rest {element : TypeExpr} (h : type fuel tokens = .ok (element, rest)) :
    tupleItem (fuel + 1) (⟨.ellipsis, start, line⟩ :: tokens) = .ok (.rest element, rest) := by
  rw [tupleItem]
  simp only [bind, Except.bind, h]

/-! ### Members -/

theorem members_nil (start : Position) (line : Nat) :
    members (fuel + 1) (⟨.mark '}', start, line⟩ :: rest) = .ok ([], rest) := by
  rw [members]
  simp only [takeDoc, eatMark_mark]

theorem members_cons {doc : Option String} {first : Member} {others : List Member}
    {behind behind' : List Token} (hd : takeDoc tokens = (doc, behind))
    (opened : eatMark '}' behind = none)
    (h : member fuel doc behind = .ok (first, ⟨.mark ';', start, line⟩ :: behind'))
    (hr : members fuel behind' = .ok (others, rest)) :
    members (fuel + 1) tokens = .ok (first :: others, rest) := by
  rw [members]
  simp only [bind, Except.bind, hd, opened, h, memberEnd, eatMark_mark, hr]

theorem member_index {doc : Option String} {isReadonly : Bool} {key : String}
    {keyType value : TypeExpr} {r₁ r₂ : List Token} {s₁ s₂ s₃ s₄ s₅ : Position}
    {l₁ l₂ l₃ l₄ l₅ : Nat}
    (hr : takeReadonly tokens =
      (isReadonly, ⟨.mark '[', s₁, l₁⟩ :: ⟨.word key, s₂, l₂⟩ :: ⟨.mark ':', s₃, l₃⟩ :: r₁))
    (hk : type fuel r₁ = .ok (keyType, ⟨.mark ']', s₄, l₄⟩ :: ⟨.mark ':', s₅, l₅⟩ :: r₂))
    (hv : type fuel r₂ = .ok (value, rest)) :
    member (fuel + 1) doc tokens = .ok (.index key keyType value isReadonly doc, rest) := by
  rw [member]
  simp only [bind, Except.bind, hr, eatMark_mark, identifier, expectMark_mark, hk, hv]

theorem member_property {doc : Option String} {isReadonly : Bool} {name : String} {found : TypeExpr}
    {behind r₁ r₂ : List Token}
    (hr : takeReadonly tokens = (isReadonly, behind)) (named : eatMark '[' behind = none)
    (hn : propertyName behind = .ok (name, r₁))
    (hc : skipMark '?' r₁ = ⟨.mark ':', start, line⟩ :: r₂)
    (ht : type fuel r₂ = .ok (found, rest)) :
    member (fuel + 1) doc tokens =
      .ok (.property name found (eatMark '?' r₁).isSome isReadonly doc, rest) := by
  rw [member]
  simp only [bind, Except.bind, hr, named, hn, hc, expectMark_mark, ht]

/-! ### Declarations -/

theorem typeParam_of_parts {name : String} {bound default : Option TypeExpr} {behind : List Token}
    (hb : optional (union fuel) (eatWord "extends" tokens) tokens = .ok (bound, behind))
    (hd : optional (type fuel) (eatMark '=' behind) behind = .ok (default, rest)) :
    typeParam fuel (⟨.word name, start, line⟩ :: tokens) = .ok (⟨name, bound, default⟩, rest) := by
  rw [typeParam]
  simp only [bind, Except.bind, identifier, hb, hd]

theorem typeParamList_last {last : TypeParam} (opened : eatMark '>' tokens = none)
    (h : typeParam fuel tokens = .ok (last, ⟨.mark '>', start, line⟩ :: rest)) :
    typeParamList (fuel + 1) tokens = .ok ([last], rest) := by
  have closed : eatMark ',' (⟨.mark '>', start, line⟩ :: rest) = none := rfl
  rw [typeParamList, opened]
  simp only [bind, Except.bind, h, closed, expectMark_mark]

theorem typeParamList_cons {first : TypeParam} {others : List TypeParam} {behind : List Token}
    (opened : eatMark '>' tokens = none)
    (h : typeParam fuel tokens = .ok (first, ⟨.mark ',', start, line⟩ :: behind))
    (hr : typeParamList fuel behind = .ok (others, rest)) :
    typeParamList (fuel + 1) tokens = .ok (first :: others, rest) := by
  rw [typeParamList, opened]
  simp only [bind, Except.bind, h, eatMark_mark, hr]

theorem bases_last {last : TypeExpr} (h : indexed fuel tokens = .ok (last, rest))
    (ended : eatMark ',' rest = none) : bases (fuel + 1) tokens = .ok ([last], rest) := by
  rw [bases]
  simp only [bind, Except.bind, h, ended]

theorem bases_cons {first : TypeExpr} {others : List TypeExpr} {behind : List Token}
    (h : indexed fuel tokens = .ok (first, ⟨.mark ',', start, line⟩ :: behind))
    (hr : bases fuel behind = .ok (others, rest)) :
    bases (fuel + 1) tokens = .ok (first :: others, rest) := by
  rw [bases]
  simp only [bind, Except.bind, h, eatMark_mark, hr]

/-- The tokens of an object type: behind its brace, members are found with all fuel from a bound
on. -/
def YieldsObject (cost : Nat) (tokens : List Token) (found : List Member) (rest : List Token) :
    Prop :=
  ∃ start line behind, tokens = ⟨.mark '{', start, line⟩ :: behind ∧
    ∀ fuel, cost ≤ fuel + 1 → members fuel behind = .ok (found, rest)

theorem YieldsObject.ends {cost : Nat} {found : List Member}
    (h : YieldsObject cost tokens found rest) :
    Delimits 0 tokens ∧ eatMark ',' tokens = none := by
  obtain ⟨start, line, behind, rfl, -⟩ := h
  exact ⟨.mark (by decide) _, rfl⟩

theorem interfaceBody_plain {doc : Option String} {isExported : Bool} {name : String} {cost : Nat}
    {params : List TypeParam} {found : List Member} {behind : List Token}
    (hp : typeParams fuel tokens = .ok (params, behind))
    (hm : YieldsObject cost behind found rest) (enough : cost ≤ fuel + 1) :
    interfaceBody fuel doc isExported (⟨.word name, start, line⟩ :: tokens) =
      .ok (⟨name, doc, params, .interface [] found, isExported⟩, rest) := by
  obtain ⟨start', line', inner, rfl, read⟩ := hm
  have opened : eatWord "extends" (⟨.mark '{', start', line'⟩ :: inner) = none := rfl
  rw [interfaceBody]
  simp only [bind, Except.bind, identifier, hp, opened, expectMark_mark, read fuel enough]

theorem interfaceBody_extends {doc : Option String} {isExported : Bool} {name : String} {cost : Nat}
    {params : List TypeParam} {extended : List TypeExpr} {found : List Member}
    {behind behind' : List Token}
    (hp : typeParams fuel tokens = .ok (params, ⟨.word "extends", start', line'⟩ :: behind))
    (hb : bases fuel behind = .ok (extended, behind'))
    (hm : YieldsObject cost behind' found rest) (enough : cost ≤ fuel + 1) :
    interfaceBody fuel doc isExported (⟨.word name, start, line⟩ :: tokens) =
      .ok (⟨name, doc, params, .interface extended found, isExported⟩, rest) := by
  obtain ⟨start'', line'', inner, rfl, read⟩ := hm
  rw [interfaceBody]
  simp only [bind, Except.bind, identifier, hp, eatWord_word, hb, expectMark_mark, read fuel enough]

theorem aliasBody_of_type {doc : Option String} {isExported : Bool} {name : String}
    {params : List TypeParam} {found : TypeExpr} {behind : List Token} {start'' : Position}
    {line'' : Nat}
    (hp : typeParams fuel tokens = .ok (params, ⟨.mark '=', start', line'⟩ :: behind))
    (ht : type fuel behind = .ok (found, ⟨.mark ';', start'', line''⟩ :: rest)) :
    aliasBody fuel doc isExported (⟨.word name, start, line⟩ :: tokens) =
      .ok (⟨name, doc, params, .alias found, isExported⟩, rest) := by
  rw [aliasBody]
  simp only [bind, Except.bind, identifier, hp, expectMark_mark, ht, skipMark, eatMark_mark]
  rfl

theorem declarations_cons {doc : Option String} {token : Token} {first : Declaration}
    {others : List Declaration} {behind : List Token}
    (hd : takeDoc tokens = (doc, token :: behind)) (plain : eatMark ';' (token :: behind) = none)
    (h : declaration fuel doc (token :: behind) = .ok (first, rest))
    (hr : declarations fuel rest = .ok others) :
    declarations (fuel + 1) tokens = .ok (first :: others) := by
  rw [declarations, hd]
  simp only [bind, Except.bind, plain, h, hr]

/-! ## The ladder of strengths -/

/-- The reader of the types from a strength on. -/
def reader : Nat → Nat → List Token → Except Failure (TypeExpr × List Token)
  | 0 => type
  | 1 => union
  | 2 => intersection
  | 3 => keyed
  | _ => indexed

/-- The reader of a strength finds a type with all fuel from a bound on; readers of lower strengths
need one more each. -/
def Yields (strength cost : Nat) (tokens : List Token) (found : TypeExpr) (rest : List Token) :
    Prop :=
  ∀ fuel, cost + (5 - strength) ≤ fuel → reader strength fuel tokens = .ok (found, rest)

/-- A type is found in front of brackets that may follow, and enough fuel is left for these. -/
def Chains (cost : Nat) (tokens : List Token) (found : TypeExpr) (rest : List Token) : Prop :=
  ∀ fuel, cost < fuel → ∃ left, fuel ≤ left + cost ∧ indexed fuel tokens = indices left found rest

section Ladder

variable {cost strength : Nat} {found : TypeExpr}

theorem chains_of_primary (h : ∀ fuel, cost ≤ fuel → primary fuel tokens = .ok (found, rest))
    (positive : 0 < cost) : Chains cost tokens found rest := by
  intro fuel hf
  obtain ⟨fuel, rfl⟩ : ∃ n, fuel = n + 1 := ⟨fuel - 1, by omega⟩
  exact ⟨fuel, by omega, indexed_of_primary (h fuel (by omega))⟩

theorem Chains.yields (h : Chains cost tokens found rest) (stop : Delimits 4 rest) :
    Yields 4 cost tokens found rest := by
  intro fuel hf
  obtain ⟨left, hl, read⟩ := h fuel (by omega)
  obtain ⟨left, rfl⟩ : ∃ n, left = n + 1 := ⟨left - 1, by omega⟩
  exact read.trans (indices_nil (stop.eatMark_eq_none (by decide)))

/-- A reader that meets no operator yields what the next one yields. -/
theorem Yields.step (h : Yields (strength + 1) cost tokens found rest) (hs : strength < 4)
    (opens : OpensType tokens) (plain : strength = 3 → eatWord "keyof" tokens = none)
    (stop : Delimits strength rest) (positive : 0 < cost) :
    Yields strength cost tokens found rest := by
  intro fuel hf
  obtain ⟨fuel, rfl⟩ : ∃ n, fuel = n + 2 := ⟨fuel - 2, by omega⟩
  have next := h (fuel + 1) (by omega)
  match strength with
  | 0 => exact type_plain next stop.eatWord_eq_none
  | 1 =>
      exact union_of_rest opens next (unionRest_nil (stop.eatMark_eq_none (by decide)))
  | 2 =>
      exact intersection_of_rest opens next
        (intersectionRest_nil (stop.eatMark_eq_none (by decide)))
  | 3 => exact (keyed_plain (plain rfl)).trans next
  | n + 4 => omega

/-- What a reader yields is yielded by every reader below it, if no operator is in the way. -/
theorem Yields.lower {wanted : Nat} (h : Yields strength cost tokens found rest)
    (hw : wanted ≤ strength) (hs : strength ≤ 4) (opens : OpensType tokens)
    (plain : wanted ≤ 3 → strength = 4 → eatWord "keyof" tokens = none)
    (stop : Delimits wanted rest) (positive : 0 < cost) : Yields wanted cost tokens found rest := by
  -- One rung at a time, by induction on the rungs between the two readers.
  obtain ⟨steps, rfl⟩ : ∃ n, strength = wanted + n := ⟨strength - wanted, by omega⟩
  induction steps generalizing wanted with
  | zero => exact h
  | succ steps ih =>
      have higher : Yields (wanted + 1) cost tokens found rest := by
        have shift : wanted + (steps + 1) = wanted + 1 + steps := by omega
        rw [shift] at h
        refine ih (stop.mono (by omega)) h (by omega) (by omega) ?_
        intro _ he
        exact plain (by omega) (by omega)
      refine higher.step (by omega) opens ?_ stop positive
      intro he
      exact plain (by omega) (by omega)

end Ladder

end Parser

end HyperSchema
