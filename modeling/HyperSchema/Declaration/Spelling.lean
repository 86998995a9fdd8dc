import HyperSchema.Text.Blank
import HyperSchema.Text.Hex

/-!
# Spelling of names and strings in declarations

How property names and string literals are written.  This file defines:

* `Declaration.escapeChar` and `Declaration.escape`, the inside of a literal in double quotes;
* `Declaration.needsQuotes`, whether a property name has to be quoted;
* `Declaration.propertyName`, a name as it is written before its colon.
-/

namespace HyperSchema.Declaration

/-- The spelling of a character inside double quotes: the short escapes where there is one, four
hexadecimal digits for other control characters and the two line separators, and itself else. -/
def escapeChar (c : Char) : List Char :=
  if c == '\\' then ['\\', '\\']
  else if c == '"' then ['\\', '"']
  else if c == '\n' then ['\\', 'n']
  else if c == '\r' then ['\\', 'r']
  else if c == '\t' then ['\\', 't']
  else if c == '\x08' then ['\\', 'b']
  else if c == '\x0b' then ['\\', 'v']
  else if c == '\x0c' then ['\\', 'f']
  else if Text.isControl c || c.toNat == 0x2028 || c.toNat == 0x2029 then
    ['\\', 'u'] ++ Text.hexPadded 4 c.toNat
  else [c]

/-- The inside of a string literal. -/
def escape (text : String) : String :=
  String.ofList (text.toList.flatMap escapeChar)

/-- A string literal in double quotes. -/
def stringLiteral (text : String) : String :=
  "\"" ++ escape text ++ "\""

/-- A character that may stand at the start of an unquoted name. -/
def startsName (c : Char) : Bool :=
  c.isAlpha || c == '_' || c == '$'

/-- A character that may stand inside an unquoted name. -/
def continuesName (c : Char) : Bool :=
  c.isAlphanum || c == '_' || c == '$'

/-- Whether a property name has to be quoted: every name but the ASCII identifiers. -/
def needsQuotes (name : String) : Bool :=
  match name.toList with
  | [] => true
  | first :: rest => !(startsName first && rest.all continuesName)

/-- A property name as it is written. -/
def propertyName (name : String) : String :=
  if needsQuotes name then stringLiteral name else name

end HyperSchema.Declaration
