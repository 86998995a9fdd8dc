import HyperSchema.Json.Basic
import HyperSchema.Text.Hex

/-!
# Writing JSON

The two written forms of a JSON value.  This file defines:

* `Json.compact`, without any white space;
* `Json.pretty`, with two blanks of indentation for each level;
* `Json.numberLayout`, the layout of doubles.

Inside strings only the quote, the backslash and the characters below U+0020 are escaped.
-/

namespace HyperSchema.Json

/-! ## Strings -/

/-- The spelling of a character inside a string. -/
def escapeChar (c : Char) : List Char :=
  if c == '"' then ['\\', '"']
  else if c == '\\' then ['\\', '\\']
  else if c == '\x08' then ['\\', 'b']
  else if c == '\x0c' then ['\\', 'f']
  else if c == '\n' then ['\\', 'n']
  else if c == '\r' then ['\\', 'r']
  else if c == '\t' then ['\\', 't']
  else if c.toNat < 32 then ['\\', 'u'] ++ Text.hexPadded 4 c.toNat
  else [c]

/-- A string in quotes. -/
def stringChars (text : String) : List Char :=
  '"' :: (text.toList.flatMap escapeChar ++ ['"'])

/-! ## Numbers -/

/-- Doubles have the fewest digits that identify them and at least one digit behind the point.  They
are positional while the leading digit stands between `10 ^ -5` and `10 ^ 15`. -/
def numberLayout : Layout where
  positional k := -5 ≤ k && k ≤ 15
  exponentMark := "e+"
  negativeExponentMark := "e-"

/-- The text of a number. -/
def Number.text : Number → String
  | .integer value => toString value
  | .double value => value.render numberLayout

/-! ## The compact form -/

mutual

/-- The compact text of a value. -/
def compactChars : Json → List Char
  | null => ['n', 'u', 'l', 'l']
  | bool true => ['t', 'r', 'u', 'e']
  | bool false => ['f', 'a', 'l', 's', 'e']
  | number value => value.text.toList
  | string text => stringChars text
  | array items => '[' :: (compactItems items ++ [']'])
  | object members => '{' :: (compactMembers members ++ ['}'])

/-- The items of an array, separated by commas. -/
def compactItems : List Json → List Char
  | [] => []
  | [item] => compactChars item
  | item :: rest => compactChars item ++ ',' :: compactItems rest

/-- The members of an object, separated by commas. -/
def compactMembers : List (String × Json) → List Char
  | [] => []
  | [(name, value)] => stringChars name ++ ':' :: compactChars value
  | (name, value) :: rest =>
      stringChars name ++ ':' :: compactChars value ++ ',' :: compactMembers rest

end

/-- The compact form of a value. -/
def compact (value : Json) : String :=
  String.ofList value.compactChars

/-! ## The indented form -/

/-- A line break and the indentation of a level. -/
def newLine (level : Nat) : List Char :=
  '\n' :: List.replicate (2 * level) ' '

mutual

/-- The indented text of a value whose surroundings stand at a level. -/
def prettyChars (level : Nat) : Json → List Char
  | null => ['n', 'u', 'l', 'l']
  | bool true => ['t', 'r', 'u', 'e']
  | bool false => ['f', 'a', 'l', 's', 'e']
  | number value => value.text.toList
  | string text => stringChars text
  | array [] => ['[', ']']
  | array (item :: rest) =>
      '[' :: newLine (level + 1) ++ prettyChars (level + 1) item ++ prettyItems level rest
  | object [] => ['{', '}']
  | object ((name, value) :: rest) =>
      '{' :: newLine (level + 1) ++ stringChars name ++ [':', ' '] ++
        prettyChars (level + 1) value ++ prettyMembers level rest

/-- The items behind the first, and the end of the array. -/
def prettyItems (level : Nat) : List Json → List Char
  | [] => newLine level ++ [']']
  | item :: rest =>
      ',' :: newLine (level + 1) ++ prettyChars (level + 1) item ++ prettyItems level rest

/-- The members behind the first, and the end of the object. -/
def prettyMembers (level : Nat) : List (String × Json) → List Char
  | [] => newLine level ++ ['}']
  | (name, value) :: rest =>
      ',' :: newLine (level + 1) ++ stringChars name ++ [':', ' '] ++
        prettyChars (level + 1) value ++ prettyMembers level rest

end

/-- The indented form of a value: two blanks for each level, empty containers on one line. -/
def pretty (value : Json) : String :=
  String.ofList (value.prettyChars 0)

end HyperSchema.Json
