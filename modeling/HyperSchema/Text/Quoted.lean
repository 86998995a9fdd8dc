import HyperSchema.Text.Hex
import HyperSchema.Text.Printable

/-!
# Quoted text in messages

How a message shows a text: in double quotes, with everything that would not be seen escaped.  This
file defines:

* `Text.quotedChar`, the spelling of one character;
* `Text.quoted`, the spelling of a text.
-/

namespace HyperSchema.Text

/-- The spelling of a character inside quotes.  Characters without a shape of their own, and those
that would join the one before them, are written `\u` with the code point in braces. -/
def quotedChar (c : Char) : List Char :=
  if c == '\x00' then ['\\', '0']
  else if c == '\t' then ['\\', 't']
  else if c == '\r' then ['\\', 'r']
  else if c == '\n' then ['\\', 'n']
  else if c == '\\' then ['\\', '\\']
  else if c == '"' then ['\\', '"']
  else if !extendsGrapheme c && isPrintable c then [c]
  else ['\\', 'u', '{'] ++ hex c.toNat ++ ['}']

/-- The text in double quotes. -/
def quoted (text : String) : String :=
  String.ofList ('"' :: (text.toList.flatMap quotedChar ++ ['"']))

end HyperSchema.Text
