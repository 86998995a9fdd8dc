import HyperSchema.Declaration.Lexer
import HyperSchema.Declaration.Type

/-!
# Reading declarations

The grammar of declaration files over tokens.  This file defines:

* `Parser.Failure`, a fault and the tokens that were left when it showed;
* `Parser.type` and its parts, type expressions by binding strength;
* `Parser.members`, the members of an object type;
* `Parser.declaration` and `Parser.declarations`;
* `Declaration.parse`, the declarations of a text.

Every reader returns the tokens behind what it read.  The readers that call each other take fuel;
`Declaration.parse` gives more than any list of tokens can use.
-/

namespace HyperSchema

namespace Parser

/-- A fault and the tokens that were left when it showed. -/
structure Failure where
  fault : SyntaxFault
  rest : List Token

/-- A reader's result: what it read and the tokens behind it. -/
abbrev Result (α : Type) := Except Failure (α × List Token)

/-- Fails before the given tokens. -/
def fail {α : Type} (fault : SyntaxFault) (rest : List Token) : Except Failure α :=
  .error ⟨fault, rest⟩

/-! ## Single tokens -/

/-- The tokens behind a sign, if they start with it. -/
def eatMark (sign : Char) (tokens : List Token) : Option (List Token) :=
  match tokens with
  | ⟨.mark found, _, _⟩ :: rest => if found = sign then some rest else none
  | _ => none

/-- The tokens behind a word, if they start with it. -/
def eatWord (word : String) (tokens : List Token) : Option (List Token) :=
  match tokens with
  | ⟨.word found, _, _⟩ :: rest => if found = word then some rest else none
  | _ => none

/-- The tokens behind a sign that may be missing. -/
def skipMark (sign : Char) (tokens : List Token) : List Token :=
  (eatMark sign tokens).getD tokens

/-- The tokens behind a sign that has to be there. -/
def expectMark (sign : Char) (tokens : List Token) : Except Failure (List Token) :=
  match eatMark sign tokens with
  | some rest => .ok rest
  | none => fail (.expectedMark sign) tokens

/-- An identifier. -/
def identifier (tokens : List Token) : Except Failure (String × List Token) :=
  match tokens with
  | ⟨.word name, _, _⟩ :: rest => .ok (name, rest)
  | _ => fail .expectedIdentifier tokens

/-! ## Documentation -/

/-- Whether a token is a documentation comment. -/
def isDoc (token : Token) : Bool :=
  match token.lexeme with
  | .doc _ => true
  | _ => false

/-- The documentation in front of the other tokens.  Of several comments only the last counts, and
only if no line between its end and the next token is left free. -/
def takeDoc : List Token → Option String × List Token
  | [] => (none, [])
  | token :: rest =>
      match token.lexeme with
      | .doc text =>
          match rest with
          | [] => (none, [])
          | next :: _ =>
              if isDoc next then takeDoc rest
              else (if next.start.line ≤ token.endLine + 1 then some text else none, rest)
      | _ => (none, token :: rest)

/-! ## Names -/

/-- The parts of a dotted name behind the first. -/
def dotted : String → List Token → Except Failure (String × List Token)
  | name, ⟨.mark '.', _, _⟩ :: rest =>
      match rest with
      | ⟨.word part, _, _⟩ :: rest => dotted (name ++ "." ++ part) rest
      | _ => fail .expectedIdentifier rest
  | name, tokens => .ok (name, tokens)

/-- A type that is a single word: a keyword or a truth value. -/
def plainWord? (word : String) : Option TypeExpr :=
  match Keyword.ofName? word with
  | some keyword => some (.keyword keyword)
  | none =>
      if word = "true" then some (.boolean true)
      else if word = "false" then some (.boolean false)
      else none

/-! ## Types -/

/-- A union, or its only alternative. -/
def joinUnion (first : TypeExpr) (others : List TypeExpr) : TypeExpr :=
  if others.isEmpty then first else .union (first :: others)

/-- An intersection, or its only part. -/
def joinIntersection (first : TypeExpr) (others : List TypeExpr) : TypeExpr :=
  if others.isEmpty then first else .intersection (first :: others)

/-- The signs behind which `readonly` is the name of a property and no modifier. -/
def endsName (token : Token) : Bool :=
  match token.lexeme with
  | .mark sign => [':', '?', ';', ',', '}'].contains sign
  | _ => false

/-- The modifier in front of a member, if it is there. -/
def takeReadonly (tokens : List Token) : Bool × List Token :=
  match eatWord "readonly" tokens with
  | none => (false, tokens)
  | some rest =>
      match rest with
      | next :: _ => if endsName next then (false, tokens) else (true, rest)
      | [] => (true, rest)

/-- The name of a property. -/
def propertyName (tokens : List Token) : Except Failure (String × List Token) :=
  match tokens with
  | ⟨.word name, _, _⟩ :: rest => .ok (name, rest)
  | ⟨.text name, _, _⟩ :: rest => .ok (name, rest)
  | ⟨.number name, _, _⟩ :: rest => .ok (name, rest)
  | _ => fail .expectedPropertyName tokens

/-- What stands between two members, or in front of the end. -/
def memberEnd (tokens : List Token) : Except Failure (List Token) :=
  match eatMark ';' tokens with
  | some rest => .ok rest
  | none =>
      match eatMark ',' tokens with
      | some rest => .ok rest
      | none =>
          if (eatMark '}' tokens).isSome then .ok tokens else fail .expectedMemberEnd tokens

mutual

/-- A type: a union, or a conditional. -/
def type : Nat → List Token → Except Failure (TypeExpr × List Token)
  | 0, tokens => fail .nestingTooDeep tokens
  | fuel + 1, tokens => do
      let (check, rest) ← union fuel tokens
      match eatWord "extends" rest with
      | none => .ok (check, rest)
      | some rest => do
          let (bound, rest) ← union fuel rest
          let rest ← expectMark '?' rest
          let (whenTrue, rest) ← type fuel rest
          let rest ← expectMark ':' rest
          let (whenFalse, rest) ← type fuel rest
          .ok (.conditional check bound whenTrue whenFalse, rest)

/-- A union, which may start with its sign. -/
def union : Nat → List Token → Except Failure (TypeExpr × List Token)
  | 0, tokens => fail .nestingTooDeep tokens
  | fuel + 1, tokens => do
      let (first, rest) ← intersection fuel (skipMark '|' tokens)
      let (others, rest) ← unionRest fuel rest
      .ok (joinUnion first others, rest)

/-- The alternatives behind the first. -/
def unionRest : Nat → List Token → Except Failure (List TypeExpr × List Token)
  | 0, tokens => fail .nestingTooDeep tokens
  | fuel + 1, tokens =>
      match eatMark '|' tokens with
      | none => .ok ([], tokens)
      | some rest => do
          let (next, rest) ← intersection fuel rest
          let (others, rest) ← unionRest fuel rest
          .ok (next :: others, rest)

/-- An intersection, which may start with its sign. -/
def intersection : Nat → List Token → Except Failure (TypeExpr × List Token)
  | 0, tokens => fail .nestingTooDeep tokens
  | fuel + 1, tokens => do
      let (first, rest) ← keyed fuel (skipMark '&' tokens)
      let (others, rest) ← intersectionRest fuel rest
      .ok (joinIntersection first others, rest)

/-- The parts behind the first. -/
def intersectionRest : Nat → List Token → Except Failure (List TypeExpr × List Token)
  | 0, tokens => fail .nestingTooDeep tokens
  | fuel + 1, tokens =>
      match eatMark '&' tokens with
      | none => .ok ([], tokens)
      | some rest => do
          let (next, rest) ← keyed fuel rest
          let (others, rest) ← intersectionRest fuel rest
          .ok (next :: others, rest)

/-- A type with any number of `keyof` in front. -/
def keyed : Nat → List Token → Except Failure (TypeExpr × List Token)
  | 0, tokens => fail .nestingTooDeep tokens
  | fuel + 1, tokens =>
      match eatWord "keyof" tokens with
      | some rest => do
          let (operand, rest) ← keyed fuel rest
          .ok (.keyOf operand, rest)
      | none => indexed fuel tokens

/-- A type with any number of brackets behind it. -/
def indexed : Nat → List Token → Except Failure (TypeExpr × List Token)
  | 0, tokens => fail .nestingTooDeep tokens
  | fuel + 1, tokens => do
      let (base, rest) ← primary fuel tokens
      indices fuel base rest

/-- The brackets behind a type: empty for an array, with a type for an access. -/
def indices : Nat → TypeExpr → List Token → Except Failure (TypeExpr × List Token)
  | 0, _, tokens => fail .nestingTooDeep tokens
  | fuel + 1, base, tokens =>
      match eatMark '[' tokens with
      | none => .ok (base, tokens)
      | some rest =>
          match eatMark ']' rest with
          | some rest => indices fuel (.array base) rest
          | none => do
              let (index, rest) ← type fuel rest
              let rest ← expectMark ']' rest
              indices fuel (.access base index) rest

/-- A type without signs in front or behind. -/
def primary : Nat → List Token → Except Failure (TypeExpr × List Token)
  | 0, tokens => fail .nestingTooDeep tokens
  | _ + 1, [] => fail .unexpectedEnd []
  | fuel + 1, token :: rest =>
      match token.lexeme with
      -- Parentheses group and leave no trace; the printer puts them back where they are needed.
      | .mark '(' => do
          let (inner, rest) ← type fuel rest
          let rest ← expectMark ')' rest
          .ok (inner, rest)
      | .mark '{' => do
          let (members, rest) ← members fuel rest
          .ok (.object members, rest)
      | .mark '[' => do
          let (items, rest) ← tupleItems fuel rest
          .ok (.tuple items, rest)
      | .mark '-' =>
          match rest with
          | ⟨.number spelling, _, _⟩ :: rest => .ok (.number ("-" ++ spelling), rest)
          | _ => fail .expectedNumber rest
      | .text value => .ok (.string value, rest)
      | .number spelling => .ok (.number spelling, rest)
      | .word word =>
          match plainWord? word with
          | some plain => .ok (plain, rest)
          | none => do
              let (name, rest) ← dotted word rest
              match eatMark '<' rest with
              | none => .ok (.reference name [], rest)
              | some rest => do
                  let (args, rest) ← arguments fuel rest
                  .ok (.reference name args, rest)
      | _ => fail .expectedType (token :: rest)

/-- The arguments of a named type, and the sign that closes them. -/
def arguments : Nat → List Token → Except Failure (List TypeExpr × List Token)
  | 0, tokens => fail .nestingTooDeep tokens
  | fuel + 1, tokens => do
      let (first, rest) ← type fuel tokens
      match eatMark ',' rest with
      | some rest => do
          let (others, rest) ← arguments fuel rest
          .ok (first :: others, rest)
      | none => do
          let rest ← expectMark '>' rest
          .ok ([first], rest)

/-- The items of a tuple, and the bracket that closes it; a comma may stand before the bracket. -/
def tupleItems : Nat → List Token → Except Failure (List TypeExpr × List Token)
  | 0, tokens => fail .nestingTooDeep tokens
  | fuel + 1, tokens =>
      match eatMark ']' tokens with
      | some rest => .ok ([], rest)
      | none => do
          let (first, rest) ← tupleItem fuel tokens
          match eatMark ',' rest with
          | some rest => do
              let (others, rest) ← tupleItems fuel rest
              .ok (first :: others, rest)
          | none => do
              let rest ← expectMark ']' rest
              .ok ([first], rest)

/-- An item of a tuple, which may be a rest element. -/
def tupleItem : Nat → List Token → Except Failure (TypeExpr × List Token)
  | 0, tokens => fail .nestingTooDeep tokens
  | fuel + 1, tokens =>
      match tokens with
      | ⟨.ellipsis, _, _⟩ :: rest => do
          let (element, rest) ← type fuel rest
          .ok (.rest element, rest)
      | _ => type fuel tokens

/-- The members of an object type behind its opening brace, and the brace that closes it. -/
def members : Nat → List Token → Except Failure (List Member × List Token)
  | 0, tokens => fail .nestingTooDeep tokens
  | fuel + 1, tokens =>
      let (doc, tokens) := takeDoc tokens
      match eatMark '}' tokens with
      | some rest => .ok ([], rest)
      | none => do
          let (first, rest) ← member fuel doc tokens
          let rest ← memberEnd rest
          let (others, rest) ← members fuel rest
          .ok (first :: others, rest)

/-- A member: an index signature or a property. -/
def member : Nat → Option String → List Token → Except Failure (Member × List Token)
  | 0, _, tokens => fail .nestingTooDeep tokens
  | fuel + 1, doc, tokens =>
      let (isReadonly, tokens) := takeReadonly tokens
      match eatMark '[' tokens with
      | some rest => do
          let (key, rest) ← identifier rest
          let rest ← expectMark ':' rest
          let (keyType, rest) ← type fuel rest
          let rest ← expectMark ']' rest
          let rest ← expectMark ':' rest
          let (value, rest) ← type fuel rest
          .ok (.index key keyType value isReadonly doc, rest)
      | none => do
          let (name, rest) ← propertyName tokens
          let isOptional := (eatMark '?' rest).isSome
          let rest ← expectMark ':' (skipMark '?' rest)
          let (found, rest) ← type fuel rest
          .ok (.property name found isOptional isReadonly doc, rest)

end

/-! ## Declarations -/

/-- A type behind a word or sign, where that is there. -/
def optional (read : List Token → Except Failure (TypeExpr × List Token))
    (behind : Option (List Token)) (tokens : List Token) :
    Except Failure (Option TypeExpr × List Token) :=
  match behind with
  | some rest => do
      let (found, rest) ← read rest
      .ok (some found, rest)
  | none => .ok (none, tokens)

/-- A type parameter with its bound and its default. -/
def typeParam (fuel : Nat) (tokens : List Token) : Except Failure (TypeParam × List Token) := do
  let (name, rest) ← identifier tokens
  -- A bound is no conditional type: its `extends` would be that of the parameter.
  let (bound, rest) ← optional (union fuel) (eatWord "extends" rest) rest
  let (default, rest) ← optional (type fuel) (eatMark '=' rest) rest
  .ok ({ name, bound, default }, rest)

/-- The type parameters behind their opening sign, and the sign that closes them; a comma may stand
before it. -/
def typeParamList : Nat → List Token → Except Failure (List TypeParam × List Token)
  | 0, tokens => fail .nestingTooDeep tokens
  | fuel + 1, tokens =>
      match eatMark '>' tokens with
      | some rest => .ok ([], rest)
      | none => do
          let (first, rest) ← typeParam fuel tokens
          match eatMark ',' rest with
          | some rest => do
              let (others, rest) ← typeParamList fuel rest
              .ok (first :: others, rest)
          | none => do
              let rest ← expectMark '>' rest
              .ok ([first], rest)

/-- The type parameters of a declaration, if it has any. -/
def typeParams (fuel : Nat) (tokens : List Token) : Except Failure (List TypeParam × List Token) :=
  match eatMark '<' tokens with
  | some rest => typeParamList fuel rest
  | none => .ok ([], tokens)

/-- The types that an interface extends. -/
def bases : Nat → List Token → Except Failure (List TypeExpr × List Token)
  | 0, tokens => fail .nestingTooDeep tokens
  | fuel + 1, tokens => do
      -- No operator may stand here, unless it is in parentheses.
      let (first, rest) ← indexed fuel tokens
      match eatMark ',' rest with
      | some rest => do
          let (others, rest) ← bases fuel rest
          .ok (first :: others, rest)
      | none => .ok ([first], rest)

/-- An interface behind its keyword. -/
def interfaceBody (fuel : Nat) (doc : Option String) (isExported : Bool) (tokens : List Token) :
    Except Failure (Declaration × List Token) := do
  let (name, rest) ← identifier tokens
  let (params, rest) ← typeParams fuel rest
  let (extended, rest) ← match eatWord "extends" rest with
    | some rest => bases fuel rest
    | none => .ok ([], rest)
  let rest ← expectMark '{' rest
  let (found, rest) ← members fuel rest
  .ok ({ name, doc, params, body := .interface extended found, isExported }, rest)

/-- An alias behind its keyword; a semicolon may follow it. -/
def aliasBody (fuel : Nat) (doc : Option String) (isExported : Bool) (tokens : List Token) :
    Except Failure (Declaration × List Token) := do
  let (name, rest) ← identifier tokens
  let (params, rest) ← typeParams fuel rest
  let rest ← expectMark '=' rest
  let (found, rest) ← type fuel rest
  .ok ({ name, doc, params, body := .alias found, isExported }, skipMark ';' rest)

/-- A declaration, which `export` and `declare` may introduce. -/
def declaration (fuel : Nat) (doc : Option String) (tokens : List Token) :
    Except Failure (Declaration × List Token) :=
  let isExported := (eatWord "export" tokens).isSome
  let tokens := (eatWord "export" tokens).getD tokens
  let tokens := (eatWord "declare" tokens).getD tokens
  match eatWord "interface" tokens with
  | some rest => interfaceBody fuel doc isExported rest
  | none =>
      match eatWord "type" tokens with
      | some rest => aliasBody fuel doc isExported rest
      | none => fail .expectedDeclaration tokens

/-- All declarations; semicolons between them are passed over. -/
def declarations : Nat → List Token → Except Failure (List Declaration)
  | 0, tokens => fail .nestingTooDeep tokens
  | fuel + 1, tokens =>
      let (doc, tokens) := takeDoc tokens
      match tokens with
      | [] => .ok []
      | _ :: _ =>
          match eatMark ';' tokens with
          | some rest => declarations fuel rest
          | none => do
              let (first, rest) ← declaration fuel doc tokens
              let others ← declarations fuel rest
              .ok (first :: others)

/-! ## Places of failures -/

/-- The place of a failure: the first token left, or the last of all where none is left. -/
def Failure.position (all : List Token) (failure : Failure) : Position :=
  match failure.rest with
  | token :: _ => token.start
  | [] =>
      match all.getLast? with
      | some token => token.start
      | none => .first

/-- Fuel for a list of tokens: the readers call each other at most a dozen times for each token. -/
def fuelFor (tokens : List Token) : Nat :=
  16 * (tokens.length + 1)

end Parser

/-- The declarations of a text, in order. -/
def Declaration.parse (source : String) : Except SyntaxError (List Declaration) :=
  match Lexer.tokens source with
  | .error e => .error e
  | .ok tokens =>
      match Parser.declarations (Parser.fuelFor tokens) tokens with
      | .ok found => .ok found
      | .error failure => .error ⟨failure.position tokens, failure.fault⟩

end HyperSchema
