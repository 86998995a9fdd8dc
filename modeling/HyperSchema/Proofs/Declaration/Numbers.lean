import HyperSchema.Proofs.Declaration.Rereading

/-!
# Numbers — which decimal literals are read

The lexer takes letters, digits and points for parts of a number, and a sign for the end of it.  So
it does not know the sign of an exponent.  This file defines:

* `NumberLiteral`, the decimal literals, with their spelling `NumberLiteral.text`;
* `NumberLiteral.source` and `Declaration.numberAlias`, an alias of a number as a text and as a
  declaration;
* `Declaration.parse_numberLiteral`: the alias is read, and so as it is written, if and only if its
  exponent has no sign; it is printed as it is written in any case.
-/

namespace HyperSchema

/-! ## Decimal literals -/

/-- Decimal digits, of which there is one at least. -/
structure Digits where
  chars : List Char
  nonempty : chars ≠ []
  decimal : chars.all Char.isDigit = true

/-- The sign of an exponent. -/
inductive ExponentSign where
  | plus
  | minus
deriving DecidableEq

def ExponentSign.char : ExponentSign → Char
  | plus => '+'
  | minus => '-'

/-- The exponent of a literal, with its letter in either case. -/
structure Exponent where
  isCapital : Bool
  sign? : Option ExponentSign
  digits : Digits

/-- A decimal literal. -/
structure NumberLiteral where
  isNegative : Bool
  whole : Digits
  fraction? : Option Digits
  exponent? : Option Exponent

def Exponent.letter (exponent : Exponent) : Char :=
  if exponent.isCapital then 'E' else 'e'

/-- The digits of an exponent behind their sign. -/
def Exponent.tail (exponent : Exponent) : List Char :=
  (exponent.sign?.map ExponentSign.char).toList ++ exponent.digits.chars

namespace NumberLiteral

/-- The sign of the whole. -/
def minus (literal : NumberLiteral) : List Char :=
  if literal.isNegative then ['-'] else []

/-- The digits with the point between them. -/
def mantissa (literal : NumberLiteral) : List Char :=
  literal.whole.chars ++
    match literal.fraction? with
    | none => []
    | some digits => '.' :: digits.chars

/-- The literal as it is written. -/
def text (literal : NumberLiteral) : String :=
  String.ofList (literal.minus ++ literal.mantissa ++
    match literal.exponent? with
    | none => []
    | some exponent => exponent.letter :: exponent.tail)

/-- What stands in front of the sign of the exponent. -/
def head (literal : NumberLiteral) : List Char :=
  literal.minus ++ literal.mantissa ++
    match literal.exponent? with
    | none => []
    | some exponent => [exponent.letter]

/-- An alias of the literal. -/
def source (literal : NumberLiteral) : String :=
  "type A = " ++ literal.text ++ ";"

/-- The sign of the exponent. -/
def exponentSign? (literal : NumberLiteral) : Option ExponentSign :=
  literal.exponent?.bind Exponent.sign?

end NumberLiteral

/-- What is said of the sign of an exponent: no token starts with a plus, and behind the type that a
minus ends, another declaration is expected. -/
def ExponentSign.fault : ExponentSign → SyntaxFault
  | plus => .unexpectedCharacter '+'
  | minus => .expectedDeclaration

namespace Declaration

/-- An alias of a number. -/
def numberAlias (spelling : String) : Declaration :=
  { name := "A", doc := none, params := [], body := .alias (.number spelling), isExported := false }

/-- The pieces of an alias up to its number. -/
def aliasPieces (spelling : String) : List Piece :=
  [.word "type", .gap [' '], .word "A", .gap [' '], .mark '=', .gap [' ']] ++ Piece.number spelling

end Declaration

/-! ## The stretch that the lexer takes -/

namespace Digits

theorem all_continuesNumber (digits : Digits) : digits.chars.all Lexer.continuesNumber = true := by
  refine List.all_eq_true.2 ?_
  intro c mem
  have digit : c.isDigit = true := List.all_eq_true.1 digits.decimal c mem
  simp [Lexer.continuesNumber, Char.isAlphanum, digit]

theorem isNumeral_append (digits : Digits) {more : List Char}
    (continues : more.all Lexer.continuesNumber = true) :
    Lexer.isNumeral (digits.chars ++ more) = true := by
  rcases digits with ⟨_ | ⟨first, others⟩, nonempty, decimal⟩
  · exact absurd rfl nonempty
  · have all := all_continuesNumber ⟨first :: others, nonempty, decimal⟩
    simp only [List.all_cons, Bool.and_eq_true] at all decimal
    simp [Lexer.isNumeral, decimal.1, all.2, continues]

end Digits

namespace NumberLiteral

variable (literal : NumberLiteral)

/-- A number may start with a minus. -/
theorem isNumber_minus_append {digits : List Char} (numeral : Lexer.isNumeral digits = true) :
    Declaration.isNumber (String.ofList (literal.minus ++ digits)) = true := by
  unfold NumberLiteral.minus
  cases literal.isNegative with
  | true =>
      rw [Declaration.isNumber, String.toList_ofList]
      exact numeral
  | false =>
      refine Declaration.isNumber_of_isNumeral ?_
      rw [String.toList_ofList]
      exact numeral

/-- Behind its first digits, a literal goes on with the number. -/
theorem isNumber_mantissa_append {more : List Char}
    (continues : more.all Lexer.continuesNumber = true) :
    Declaration.isNumber (String.ofList (literal.minus ++ literal.mantissa ++ more)) = true := by
  have point : Lexer.continuesNumber '.' = true := by decide
  rw [List.append_assoc]
  refine literal.isNumber_minus_append ?_
  rw [mantissa, List.append_assoc]
  refine literal.whole.isNumeral_append ?_
  cases literal.fraction? with
  | none => exact continues
  | some digits => simp [continues, point, digits.all_continuesNumber]

theorem continuesNumber_letter (exponent : Exponent) :
    Lexer.continuesNumber exponent.letter = true := by
  unfold Exponent.letter
  cases exponent.isCapital <;> decide

/-- Up to the sign of its exponent, a literal is a number to the lexer. -/
theorem isNumber_head : Declaration.isNumber (String.ofList literal.head) = true := by
  refine literal.isNumber_mantissa_append ?_
  cases literal.exponent? with
  | none => rfl
  | some exponent => simp [continuesNumber_letter exponent]

/-- Without a sign in its exponent, it is one as a whole. -/
theorem isNumber_text (unsigned : literal.exponentSign? = none) :
    Declaration.isNumber literal.text = true := by
  refine literal.isNumber_mantissa_append ?_
  unfold exponentSign? at unsigned
  cases written : literal.exponent? with
  | none => rfl
  | some exponent =>
      rw [written] at unsigned
      have bare : exponent.sign? = none := unsigned
      simp [Exponent.tail, bare, continuesNumber_letter exponent,
        exponent.digits.all_continuesNumber]

/-- The sign of the exponent stands between a number and digits. -/
theorem text_of_exponentSign {sign : ExponentSign} (signed : literal.exponentSign? = some sign) :
    ∃ digits : Digits,
      literal.text = String.ofList (literal.head ++ sign.char :: digits.chars) := by
  rcases Option.bind_eq_some_iff.1 signed with ⟨exponent, written, same⟩
  refine ⟨exponent.digits, ?_⟩
  simp [text, head, written, Exponent.tail, same]

end NumberLiteral

/-! ## The alias of a number -/

/-- A text without line feeds moves the column by its length. -/
theorem Position.advanceAll_of_not_mem {text : List Char} (flat : '\n' ∉ text) (here : Position) :
    here.advanceAll text = ⟨here.line, here.column + text.length⟩ := by
  induction text generalizing here with
  | nil => rfl
  | cons c text ih =>
      rw [List.mem_cons, not_or] at flat
      rw [advanceAll_cons, ih flat.2, advance, if_neg (Ne.symm flat.1), List.length_cons,
        Nat.add_assoc, Nat.add_comm 1]

namespace Declaration

open Piece

variable {spelling : String}

theorem not_mem_of_isNumeral {digits : List Char} (h : Lexer.isNumeral digits = true) :
    '\n' ∉ digits := by
  have feed : Lexer.continuesNumber '\n' = false := by decide
  intro mem
  cases digits with
  | nil => cases h
  | cons first others =>
      simp only [Lexer.isNumeral, Bool.and_eq_true, List.all_eq_true] at h
      rcases List.mem_cons.1 mem with rfl | mem
      · exact absurd h.1 (by decide)
      · rw [h.2 _ mem] at feed
        cases feed

theorem not_mem_of_isNumber (number : isNumber spelling = true) : '\n' ∉ spelling.toList := by
  unfold isNumber at number
  split at number
  · rename_i digits signed
    rw [signed, List.mem_cons, not_or]
    exact ⟨by decide, not_mem_of_isNumeral number⟩
  · exact not_mem_of_isNumeral number

theorem spell_aliasPieces (spelling : String) :
    spell (aliasPieces spelling) = "type A = ".toList ++ spelling.toList := by
  rw [aliasPieces, spell_append, spell_number]
  rfl

/-- The alias is read up to where its number is stopped. -/
theorem tokensFrom_alias (number : isNumber spelling = true) {rest : List Char}
    (stop : Stops rest) :
    Lexer.tokensFrom .first ("type A = ".toList ++ spelling.toList ++ rest) =
      (Lexer.tokensFrom ⟨1, 10 + spelling.toList.length⟩ rest).map
        (place .first (aliasPieces spelling) ++ ·) := by
  have read : AllRead (aliasPieces spelling) rest := by
    have keyword (tail : List Char) : (word "type").Reads (' ' :: tail) :=
      reads_word (by decide) (by rintro _ ⟨⟩; decide)
    have name (tail : List Char) : (word "A").Reads (' ' :: tail) :=
      reads_word (by decide) (by rintro _ ⟨⟩; decide)
    have blank (tail : List Char) : (gap [' ']).Reads tail := reads_gap rfl tail
    rw [aliasPieces, allRead_append]
    exact ⟨⟨keyword _, blank _, name _, blank _, reads_mark (by decide) _, blank _, trivial⟩,
      allRead_number number stop⟩
  have flat : '\n' ∉ "type A = ".toList ++ spelling.toList := by
    rw [List.mem_append, not_or]
    exact ⟨by decide, not_mem_of_isNumber number⟩
  have moved : Position.first.advanceAll ("type A = ".toList ++ spelling.toList) =
      ⟨1, 10 + spelling.toList.length⟩ := by
    rw [Position.advanceAll_of_not_mem flat, List.length_append, ← Nat.add_assoc]
    rfl
  have found := tokensFrom_spell read .first
  rwa [spell_aliasPieces, moved] at found

theorem count_number_le (spelling : String) : count (Piece.number spelling) ≤ 2 := by
  unfold Piece.number
  split
  · exact Nat.le_refl 2
  · exact Nat.le_succ 1

/-- The alias is one declaration, whatever stands behind it. -/
theorem declaration_aliasPieces (number : isNumber spelling = true) {rest : List Token}
    (stop : Parser.Delimits 0 rest) {fuel : Nat} (enough : 21 ≤ fuel) :
    Parser.declaration fuel none (place .first (aliasPieces spelling) ++ rest) =
      .ok (numberAlias spelling, Parser.skipMark ';' rest) := by
  have few := count_number_le spelling
  have legible : (TypeExpr.number spelling).isLegible false = true := number
  have read := TypeExpr.reread_free legible 0 ⟨1, 10⟩ rest stop fuel (by
    simp only [TypeExpr.pieces]
    omega)
  have untyped : Parser.typeParams fuel (⟨.mark '=', ⟨1, 8⟩, 1⟩ ::
      (place ⟨1, 10⟩ (Piece.number spelling) ++ rest)) =
        .ok ([], ⟨.mark '=', ⟨1, 8⟩, 1⟩ :: (place ⟨1, 10⟩ (Piece.number spelling) ++ rest)) := rfl
  have keyword : Parser.declaration fuel none (place .first (aliasPieces spelling) ++ rest) =
      Parser.aliasBody fuel none false (⟨.word "A", ⟨1, 6⟩, 1⟩ :: ⟨.mark '=', ⟨1, 8⟩, 1⟩ ::
        (place ⟨1, 10⟩ (Piece.number spelling) ++ rest)) :=
    @Parser.declaration_alias fuel none .first ⟨1, 1⟩ 1 _ false
  have found : Parser.type fuel (place ⟨1, 10⟩ (Piece.number spelling) ++ rest) =
      .ok (.number spelling, rest) := read
  rw [keyword, Parser.aliasBody]
  simp only [bind, Except.bind, Parser.identifier, untyped, Parser.expectMark_mark, found]
  rfl

/-- The declarations of an alias are itself and those behind it. -/
theorem declarations_aliasPieces (number : isNumber spelling = true) {rest : List Token}
    (stop : Parser.Delimits 0 rest) {fuel : Nat} (enough : 21 ≤ fuel) :
    Parser.declarations (fuel + 1) (place .first (aliasPieces spelling) ++ rest) =
      (Parser.declarations fuel (Parser.skipMark ';' rest)).map (numberAlias spelling :: ·) := by
  have first := declaration_aliasPieces number stop enough
  obtain ⟨token, behind, opened, plain, other⟩ : ∃ token behind,
      place .first (aliasPieces spelling) ++ rest = token :: behind ∧
        Parser.takeDoc (token :: behind) = (none, token :: behind) ∧
        Parser.eatMark ';' (token :: behind) = none :=
    ⟨_, _, rfl, rfl, rfl⟩
  rw [opened] at first ⊢
  rw [Parser.declarations, plain]
  simp only [other, first, bind, Except.bind]
  cases Parser.declarations fuel (Parser.skipMark ';' rest) <;> rfl

theorem fuelFor_aliasPieces (spelling : String) (rest : List Token) :
    ∃ fuel, Parser.fuelFor (place .first (aliasPieces spelling) ++ rest) = fuel + 2 ∧
      21 ≤ fuel + 1 := by
  have several : 3 ≤ (place .first (aliasPieces spelling)).length := by
    rw [length_place, aliasPieces, count_append]
    exact Nat.le_add_right 3 _
  refine ⟨16 * ((place .first (aliasPieces spelling)).length + rest.length) + 14, ?_, by omega⟩
  rw [Parser.fuelFor, List.length_append]
  omega

/-- The text of an alias, up to something behind its number. -/
def aliasText (spelling : String) (behind : List Char) : String :=
  "type A = " ++ spelling ++ String.ofList behind

theorem toList_aliasText (spelling : String) (behind : List Char) :
    (aliasText spelling behind).toList = "type A = ".toList ++ spelling.toList ++ behind := by
  simp [aliasText]

/-- Where the tokens behind the number are known, the rest is up to the parser. -/
theorem parse_aliasText (number : isNumber spelling = true) {behind : List Char} {rest : List Token}
    (stop : Stops behind)
    (lexed : Lexer.tokensFrom ⟨1, 10 + spelling.toList.length⟩ behind = .ok rest)
    (delimited : Parser.Delimits 0 rest) :
    ∃ fuel, parse (aliasText spelling behind) =
      match Parser.declarations (fuel + 1) (Parser.skipMark ';' rest) with
      | .ok others => .ok (numberAlias spelling :: others)
      | .error failure =>
          .error
            ⟨failure.position (place .first (aliasPieces spelling) ++ rest), failure.fault⟩ := by
  have tokens : Lexer.tokens (aliasText spelling behind) =
      .ok (place .first (aliasPieces spelling) ++ rest) := by
    rw [Lexer.tokens, toList_aliasText, tokensFrom_alias number stop, lexed]
    rfl
  rcases fuelFor_aliasPieces spelling rest with ⟨fuel, same, enough⟩
  refine ⟨fuel, ?_⟩
  rw [parse, tokens]
  simp only [same, declarations_aliasPieces number delimited enough]
  cases Parser.declarations (fuel + 1) (Parser.skipMark ';' rest) <;> rfl

/-- A semicolon ends the alias and the file. -/
theorem parse_aliasText_semicolon (number : isNumber spelling = true) :
    parse (aliasText spelling [';']) = .ok [numberAlias spelling] := by
  have semicolon : AllRead [mark ';'] [] := ⟨reads_mark (by decide) [], trivial⟩
  have lexed := tokensFrom_spell semicolon ⟨1, 10 + spelling.toList.length⟩
  rw [tokensFrom_nil, Except.map, List.append_nil, List.append_nil, spell_cons, spell_nil,
    chars_mark, List.append_nil, place_mark, place_nil] at lexed
  rcases parse_aliasText number (stops_cons (by decide) []) lexed (.mark (by decide) []) with
    ⟨fuel, read⟩
  exact read

/-- No token starts with a plus. -/
theorem parse_aliasText_plus (number : isNumber spelling = true) (behind : List Char) :
    parse (aliasText spelling ('+' :: behind)) =
      .error ⟨⟨1, 10 + spelling.toList.length⟩, .unexpectedCharacter '+'⟩ := by
  have stop : Stops ('+' :: behind) := by
    rintro _ ⟨⟩
    decide
  have noWord : Lexer.startsWord '+' = false := by decide +kernel
  have failed : Lexer.step ⟨1, 10 + spelling.toList.length⟩ '+' behind =
      .error ⟨⟨1, 10 + spelling.toList.length⟩, .unexpectedCharacter '+'⟩ := by
    simp [Lexer.step, Text.isBlank, Lexer.isQuote, noWord, Lexer.marks, Lexer.fail]
  have tokens : Lexer.tokens (aliasText spelling ('+' :: behind)) =
      .error ⟨⟨1, 10 + spelling.toList.length⟩, .unexpectedCharacter '+'⟩ := by
    rw [Lexer.tokens, toList_aliasText, tokensFrom_alias number stop,
      tokensFrom_of_step_error failed]
    rfl
  rw [parse, tokens]

/-- A minus is a token, with which no declaration starts. -/
theorem parse_aliasText_minus (number : isNumber spelling = true) (digits : Digits) :
    parse (aliasText spelling ('-' :: (digits.chars ++ [';']))) =
      .error ⟨⟨1, 10 + spelling.toList.length⟩, .expectedDeclaration⟩ := by
  have stop : Stops ('-' :: (digits.chars ++ [';'])) := by
    rintro _ ⟨⟩
    decide
  have read : AllRead [mark '-', Piece.digits digits.chars, mark ';'] [] := by
    have ends : ∀ c ∈ [';'].head?, Lexer.continuesNumber c = false := by
      rintro _ ⟨⟩
      decide
    have numeral : Lexer.isNumeral digits.chars = true := by
      have continues : ([] : List Char).all Lexer.continuesNumber = true := rfl
      have whole := digits.isNumeral_append continues
      rwa [List.append_nil] at whole
    exact ⟨reads_mark (by decide) _, reads_number numeral ends, reads_mark (by decide) _, trivial⟩
  have lexed := tokensFrom_spell read ⟨1, 10 + spelling.toList.length⟩
  rw [tokensFrom_nil, Except.map, List.append_nil, List.append_nil, spell_cons, chars_mark,
    place_mark] at lexed
  rcases parse_aliasText number stop lexed (.mark (by decide) _) with ⟨fuel, read⟩
  exact read

theorem print_numberAlias (spelling : String) :
    print [numberAlias spelling] = "type A = " ++ spelling ++ ";\n" := by
  have pieces : (numberAlias spelling).pieces =
      aliasPieces spelling ++ [mark ';', gap ['\n']] := by
    simp [pieces, comment, statementPieces, modifier, headPieces, paramsPieces, numberAlias,
      TypeExpr.pieces, aliasPieces]
  refine String.toList_inj.1 ?_
  rw [print_toList, piecesAll, List.map_singleton, List.intercalate_singleton, pieces,
    spell_append, spell_aliasPieces, String.toList_append, String.toList_append]
  rfl

/-- An alias of a decimal literal is read as it is written if and only if the exponent has no sign.
A sign is an error at its own place.  The printer writes the alias as it was written. -/
theorem parse_numberLiteral (literal : NumberLiteral) :
    (parse literal.source = match literal.exponentSign? with
      | none => .ok [numberAlias literal.text]
      | some sign => .error ⟨⟨1, 10 + literal.head.length⟩, sign.fault⟩) ∧
      print [numberAlias literal.text] = literal.source ++ "\n" := by
  constructor
  · cases written : literal.exponentSign? with
    | none => exact parse_aliasText_semicolon (literal.isNumber_text written)
    | some sign =>
        rcases literal.text_of_exponentSign written with ⟨digits, split⟩
        have source : literal.source = aliasText (String.ofList literal.head)
            (sign.char :: (digits.chars ++ [';'])) := by
          refine String.toList_inj.1 ?_
          rw [toList_aliasText, NumberLiteral.source, split]
          simp
        have length : (String.ofList literal.head).toList.length = literal.head.length :=
          congrArg List.length String.toList_ofList
        rw [source, ← length]
        cases sign with
        | plus => exact parse_aliasText_plus literal.isNumber_head (digits.chars ++ [';'])
        | minus => exact parse_aliasText_minus literal.isNumber_head digits
  · have line : ";\n" = ";" ++ "\n" := by decide
    rw [print_numberAlias, NumberLiteral.source, line, ← String.append_assoc]

/-- A small number as it is usually written. -/
def tinyLiteral : NumberLiteral where
  isNegative := false
  whole := ⟨['1'], by decide, by decide⟩
  fraction? := none
  exponent? := some ⟨false, some .minus, ⟨['7'], by decide, by decide⟩⟩

theorem parse_tinyLiteral :
    tinyLiteral.source = "type A = 1e-7;" ∧
      parse "type A = 1e-7;" = .error ⟨⟨1, 12⟩, .expectedDeclaration⟩ ∧
      print [numberAlias "1e-7"] = "type A = 1e-7;\n" := by
  have source : tinyLiteral.source = "type A = 1e-7;" := by decide
  have text : tinyLiteral.text = "1e-7" := by decide
  rcases parse_numberLiteral tinyLiteral with ⟨read, printed⟩
  rw [source] at read printed
  rw [text] at printed
  exact ⟨source, read, printed⟩

end Declaration

end HyperSchema
