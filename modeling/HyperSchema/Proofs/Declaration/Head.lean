import HyperSchema.Declaration.Parser

/-!
# Head — declarations read by position

The readers of declarations hand on the tokens that are left, so they cannot leave the text.  Here
the same grammar is read by a head that stands at a position and moves.  Nothing holds it back: it
can step over the end, and where it has looked at a token in vain it steps back, for which there has
to be a token.  This file defines:

* `Head`, a reader that moves over all tokens, with `Head.advance`, `Head.retreat` and the other
  single steps;
* `Head.again`, a loop that is made round by round, and the rounds of all loops of the grammar;
* `Head.type` and its parts, which read types, `Head.declaration` and `Head.declarations`;
* `Head.parse`, the declarations of a text, with the position behind them.
-/

namespace HyperSchema

/-- Why a head stops. -/
inductive Head.Stop where
  /-- There is a fault in the text. -/
  | fault (error : SyntaxError)
  /-- There is no token to step back to. -/
  | underflow

/-- A reader with a head: for all tokens and a position, what it reads and the position behind. -/
def Head (α : Type) : Type :=
  List Token → Nat → Except Head.Stop (α × Nat)

namespace Head

instance : Monad Head where
  pure found := fun _ pos => .ok (found, pos)
  bind read next := fun all pos =>
    match read all pos with
    | .ok (found, pos) => next found all pos
    | .error stop => .error stop

variable {α : Type}

/-! ## Single steps -/

/-- What stands at the head, which stays. -/
def peek : Head (Option Lexeme) := fun all pos =>
  .ok (all[pos]?.map Token.lexeme, pos)

/-- What stands behind the token at the head, which stays. -/
def peekNext : Head (Option Lexeme) := fun all pos =>
  .ok (all[pos + 1]?.map Token.lexeme, pos)

/-- What stands at the head, which moves on, at the end too. -/
def advance : Head (Option Lexeme) := fun all pos =>
  .ok (all[pos]?.map Token.lexeme, pos + 1)

/-- The head moves back. -/
def retreat : Head Unit := fun _ pos =>
  match pos with
  | 0 => .error .underflow
  | pos + 1 => .ok ((), pos)

/-- The place of the token at a position, or of the last one where there is none. -/
def place (all : List Token) (pos : Nat) : Position :=
  ((all[pos]?.or all.getLast?).map Token.start).getD .first

/-- Fails at the head. -/
def fail (fault : SyntaxFault) : Head α := fun all pos =>
  .error (.fault ⟨place all pos, fault⟩)

/-- Moves over something if it stands at the head. -/
def eat (lexeme : Lexeme) : Head Bool := do
  if (← peek) = some lexeme then
    let _ ← advance
    return true
  else
    return false

/-- Moves over a sign that has to be there. -/
def expect (sign : Char) : Head Unit := do
  if ← eat (.mark sign) then return ()
  else fail (.expectedMark sign)

/-- An identifier. -/
def identifier : Head String := do
  match ← peek with
  | some (.word name) =>
      let _ ← advance
      return name
  | _ => fail .expectedIdentifier

/-- The text of a comment, if the next token stands on the line where the comment ends or on the one
behind it. -/
def attached (text : String) (comment : Token) (next : Option Token) : Option String :=
  match next with
  | some next => if next.start.line ≤ comment.endLine + 1 then some text else none
  | none => none

/-- Moves over comments.  The last one counts, if it is attached to what follows. -/
def docFrom (all : List Token) (doc : Option String) (pos : Nat) : Option String × Nat :=
  match _h : all[pos]? with
  | none => (doc, pos)
  | some comment =>
      match comment.lexeme with
      | .doc text => docFrom all (attached text comment all[pos + 1]?) (pos + 1)
      | _ => (doc, pos)
termination_by all.length - pos
decreasing_by
  have inside := (List.getElem?_eq_some_iff.1 _h).1
  omega

/-- The documentation at the head. -/
def takeDoc : Head (Option String) := fun all pos =>
  .ok (docFrom all none pos)

/-- The parts of a dotted name behind the first. -/
def dottedFrom (all : List Token) (name : String) (pos : Nat) : Except Stop (String × Nat) :=
  match _h : all[pos]?.map Token.lexeme with
  | some (.mark '.') =>
      match all[pos + 1]?.map Token.lexeme with
      | some (.word part) => dottedFrom all (name ++ "." ++ part) (pos + 2)
      | _ => fail .expectedIdentifier all (pos + 1)
  | _ => .ok (name, pos)
termination_by all.length - pos
decreasing_by
  rcases Option.map_eq_some_iff.1 _h with ⟨token, found, -⟩
  have inside := (List.getElem?_eq_some_iff.1 found).1
  omega

/-- A name with all its parts. -/
def dotted (name : String) : Head String := fun all pos =>
  dottedFrom all name pos

/-- The name of a property. -/
def propertyName : Head String := do
  match ← advance with
  | some (.word name) => return name
  | some (.text name) => return name
  | some (.number name) => return name
  | _ =>
      -- The step before was made at the end of the tokens too, so there is one to take back.
      retreat
      fail .expectedPropertyName

/-- Moves over what ends a member.  The closing brace ends it too, and stays. -/
def memberEnd : Head Unit := do
  if ← eat (.mark ';') then return ()
  else if ← eat (.mark ',') then return ()
  else if (← peek) = some (.mark '}') then return ()
  else fail .expectedMemberEnd

/-- Moves over the modifier of a member, unless it is the name of a property itself. -/
def takeReadonly : Head Bool := do
  if (← peek) = some (.word "readonly") then
    match ← peekNext with
    | some (.mark sign) =>
        if [':', '?', ';', ',', '}'].contains sign then return false
        else
          let _ ← advance
          return true
    | _ =>
        let _ ← advance
        return true
  else
    return false

/-! ## Loops -/

/-- A round of a loop gives items and tells whether another round follows. -/
def again (round : Head (List α × Bool)) (others : Head (List α)) : Head (List α) := do
  let (items, goesOn) ← round
  if goesOn then return items ++ (← others)
  else return items

/-- A part of a union or an intersection behind its sign. -/
def joinedRound (sign : Char) (part : Head TypeExpr) : Head (List TypeExpr × Bool) := do
  if ← eat (.mark sign) then return ([← part], true)
  else return ([], false)

/-- Brackets behind a type. -/
def indexRound (type : Head TypeExpr) (base : TypeExpr) : Head (TypeExpr × Bool) := do
  if ← eat (.mark '[') then
    if ← eat (.mark ']') then return (.array base, true)
    else
      let index ← type
      expect ']'
      return (.access base index, true)
  else return (base, false)

/-- An item of a list, and the comma behind it or the sign that closes the list. -/
def itemRound (close : Char) (item : Head α) : Head (List α × Bool) := do
  let first ← item
  if ← eat (.mark ',') then return ([first], true)
  else
    expect close
    return ([first], false)

/-- The same for a list that may end behind a comma. -/
def closableRound (close : Char) (item : Head α) : Head (List α × Bool) := do
  if ← eat (.mark close) then return ([], false)
  else itemRound close item

/-- A member with its documentation and its end, or the closing brace. -/
def memberRound (member : Option String → Head Member) : Head (List Member × Bool) := do
  let doc ← takeDoc
  if ← eat (.mark '}') then return ([], false)
  else
    let first ← member doc
    memberEnd
    return ([first], true)

/-- A type that an interface extends, and the comma behind it. -/
def baseRound (base : Head TypeExpr) : Head (List TypeExpr × Bool) := do
  let first ← base
  return ([first], ← eat (.mark ','))

/-- A declaration with its documentation, a semicolon, or the end. -/
def declarationRound (declaration : Option String → Head Declaration) :
    Head (List Declaration × Bool) := do
  let doc ← takeDoc
  if (← peek).isNone then return ([], false)
  else if ← eat (.mark ';') then return ([], true)
  else return ([← declaration doc], true)

/-! ## Types -/

/-- A union, or a conditional. -/
def typeOf (union type : Head TypeExpr) : Head TypeExpr := do
  let check ← union
  if ← eat (.word "extends") then
    let bound ← union
    expect '?'
    let whenTrue ← type
    expect ':'
    let whenFalse ← type
    return .conditional check bound whenTrue whenFalse
  else return check

/-- A union or an intersection, which may start with its sign. -/
def joined (sign : Char) (join : TypeExpr → List TypeExpr → TypeExpr) (part : Head TypeExpr)
    (others : Head (List TypeExpr)) : Head TypeExpr := do
  let _ ← eat (.mark sign)
  let first ← part
  return join first (← others)

/-- A type behind `keyof`, or one with brackets. -/
def keyedOf (keyed indexed : Head TypeExpr) : Head TypeExpr := do
  if ← eat (.word "keyof") then return .keyOf (← keyed)
  else indexed

/-- A reference, with arguments if there are any. -/
def named (word : String) (arguments : Head (List TypeExpr)) : Head TypeExpr := do
  match Parser.plainWord? word with
  | some plain => return plain
  | none =>
      let name ← dotted word
      if ← eat (.mark '<') then return .reference name (← arguments)
      else return .reference name []

/-- A number behind its minus sign. -/
def negative : Head TypeExpr := do
  match ← advance with
  | some (.number spelling) => return .number ("-" ++ spelling)
  | _ =>
      retreat
      fail .expectedNumber

/-- A type without signs in front or behind, by its first token, which is behind the head. -/
def primaryAfter (type : Head TypeExpr) (members : Head (List Member))
    (tupleItems arguments : Head (List TypeExpr)) (first : Lexeme) : Head TypeExpr :=
  match first with
  | .mark '(' => do
      let inner ← type
      expect ')'
      return inner
  | .mark '{' => return .object (← members)
  | .mark '[' => return .tuple (← tupleItems)
  | .mark '-' => negative
  | .text value => return .string value
  | .number spelling => return .number spelling
  | .word word => named word arguments
  | _ => do
      retreat
      fail .expectedType

/-- A type without signs in front or behind. -/
def primaryOf (type : Head TypeExpr) (members : Head (List Member))
    (tupleItems arguments : Head (List TypeExpr)) : Head TypeExpr := do
  match ← advance with
  -- The only fault that leaves the head behind the end of the tokens.
  | none => fail .unexpectedEnd
  | some first => primaryAfter type members tupleItems arguments first

/-- An item of a tuple, which may be a rest element. -/
def tupleItemOf (type : Head TypeExpr) : Head TypeExpr := do
  if ← eat .ellipsis then return .rest (← type)
  else type

/-- An index signature or a property. -/
def memberOf (type : Head TypeExpr) (doc : Option String) : Head Member := do
  let isReadonly ← takeReadonly
  if ← eat (.mark '[') then
    let key ← identifier
    expect ':'
    let keyType ← type
    expect ']'
    expect ':'
    let value ← type
    return .index key keyType value isReadonly doc
  else
    let name ← propertyName
    let isOptional ← eat (.mark '?')
    expect ':'
    let found ← type
    return .property name found isOptional isReadonly doc

mutual

/-- A type. -/
def type : Nat → Head TypeExpr
  | 0 => fail .nestingTooDeep
  | fuel + 1 => typeOf (union fuel) (type fuel)

/-- A union, or its only alternative. -/
def union : Nat → Head TypeExpr
  | 0 => fail .nestingTooDeep
  | fuel + 1 => joined '|' Parser.joinUnion (intersection fuel) (unionRest fuel)

/-- The alternatives behind the first. -/
def unionRest : Nat → Head (List TypeExpr)
  | 0 => fail .nestingTooDeep
  | fuel + 1 => again (joinedRound '|' (intersection fuel)) (unionRest fuel)

/-- An intersection, or its only part. -/
def intersection : Nat → Head TypeExpr
  | 0 => fail .nestingTooDeep
  | fuel + 1 => joined '&' Parser.joinIntersection (keyed fuel) (intersectionRest fuel)

/-- The parts behind the first. -/
def intersectionRest : Nat → Head (List TypeExpr)
  | 0 => fail .nestingTooDeep
  | fuel + 1 => again (joinedRound '&' (keyed fuel)) (intersectionRest fuel)

/-- A type with any number of `keyof` in front. -/
def keyed : Nat → Head TypeExpr
  | 0 => fail .nestingTooDeep
  | fuel + 1 => keyedOf (keyed fuel) (indexed fuel)

/-- A type with any number of brackets behind it. -/
def indexed : Nat → Head TypeExpr
  | 0 => fail .nestingTooDeep
  | fuel + 1 => do indices fuel (← primary fuel)

/-- The brackets behind a type. -/
def indices : Nat → TypeExpr → Head TypeExpr
  | 0, _ => fail .nestingTooDeep
  | fuel + 1, base => do
      let (next, goesOn) ← indexRound (type fuel) base
      if goesOn then indices fuel next
      else return next

/-- A type without signs in front or behind. -/
def primary : Nat → Head TypeExpr
  | 0 => fail .nestingTooDeep
  | fuel + 1 => primaryOf (type fuel) (members fuel) (tupleItems fuel) (arguments fuel)

/-- The arguments of a named type. -/
def arguments : Nat → Head (List TypeExpr)
  | 0 => fail .nestingTooDeep
  | fuel + 1 => again (itemRound '>' (type fuel)) (arguments fuel)

/-- The items of a tuple. -/
def tupleItems : Nat → Head (List TypeExpr)
  | 0 => fail .nestingTooDeep
  | fuel + 1 => again (closableRound ']' (tupleItem fuel)) (tupleItems fuel)

/-- An item of a tuple. -/
def tupleItem : Nat → Head TypeExpr
  | 0 => fail .nestingTooDeep
  | fuel + 1 => tupleItemOf (type fuel)

/-- The members of an object type. -/
def members : Nat → Head (List Member)
  | 0 => fail .nestingTooDeep
  | fuel + 1 => again (memberRound (member fuel)) (members fuel)

/-- A member. -/
def member : Nat → Option String → Head Member
  | 0, _ => fail .nestingTooDeep
  | fuel + 1, doc => memberOf (type fuel) doc

end

/-! ## Declarations -/

/-- A type behind something that may be missing. -/
def optional (lexeme : Lexeme) (read : Head TypeExpr) : Head (Option TypeExpr) := do
  if ← eat lexeme then return some (← read)
  else return none

/-- A type parameter with its bound and its default. -/
def typeParam (fuel : Nat) : Head TypeParam := do
  let name ← identifier
  let bound ← optional (.word "extends") (union fuel)
  let default ← optional (.mark '=') (type fuel)
  return { name, bound, default }

/-- The type parameters behind their opening sign. -/
def typeParamList : Nat → Head (List TypeParam)
  | 0 => fail .nestingTooDeep
  | fuel + 1 => again (closableRound '>' (typeParam fuel)) (typeParamList fuel)

/-- The type parameters of a declaration, if it has any. -/
def typeParams (fuel : Nat) : Head (List TypeParam) := do
  if ← eat (.mark '<') then typeParamList fuel
  else return []

/-- The types that an interface extends. -/
def bases : Nat → Head (List TypeExpr)
  | 0 => fail .nestingTooDeep
  | fuel + 1 => again (baseRound (indexed fuel)) (bases fuel)

/-- The types that an interface extends, if there are any. -/
def optionalBases (fuel : Nat) : Head (List TypeExpr) := do
  if ← eat (.word "extends") then bases fuel
  else return []

/-- An interface behind its keyword. -/
def interfaceBody (fuel : Nat) (doc : Option String) (isExported : Bool) : Head Declaration := do
  let name ← identifier
  let params ← typeParams fuel
  let extended ← optionalBases fuel
  expect '{'
  let found ← members fuel
  return { name, doc, params, body := .interface extended found, isExported }

/-- An alias behind its keyword. -/
def aliasBody (fuel : Nat) (doc : Option String) (isExported : Bool) : Head Declaration := do
  let name ← identifier
  let params ← typeParams fuel
  expect '='
  let found ← type fuel
  let _ ← eat (.mark ';')
  return { name, doc, params, body := .alias found, isExported }

/-- A declaration. -/
def declaration (fuel : Nat) (doc : Option String) : Head Declaration := do
  let isExported ← eat (.word "export")
  let _ ← eat (.word "declare")
  if ← eat (.word "interface") then interfaceBody fuel doc isExported
  else if ← eat (.word "type") then aliasBody fuel doc isExported
  else fail .expectedDeclaration

/-- All declarations. -/
def declarations : Nat → Head (List Declaration)
  | 0 => fail .nestingTooDeep
  | fuel + 1 => again (declarationRound (declaration fuel)) (declarations fuel)

/-- The declarations of a text, and the position behind the last. -/
def parse (source : String) : Except Stop (List Declaration × Nat) :=
  match Lexer.tokens source with
  | .error e => .error (.fault e)
  | .ok tokens => declarations (Parser.fuelFor tokens) tokens 0

end Head

end HyperSchema
