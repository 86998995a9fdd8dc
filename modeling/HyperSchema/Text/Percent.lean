import HyperSchema.Text.Hex
import HyperSchema.Text.Utf8

/-!
# Percent encoding

This file defines:

* `Text.percentBytes`, which replaces `%` and two hexadecimal digits by the byte they name;
* `Text.percentDecode`, the bytes read as UTF-8.

A `%` that is not followed by two digits stands for itself.
-/

namespace HyperSchema.Text

/-- The bytes of a text with every `%XX` replaced. -/
def percentBytes : List Char → List Nat
  | [] => []
  | '%' :: a :: b :: rest =>
      match hexValue? a, hexValue? b with
      | some high, some low => (high * 16 + low) :: percentBytes rest
      | _, _ => utf8Bytes ['%'] ++ percentBytes (a :: b :: rest)
  | c :: rest => utf8Bytes [c] ++ percentBytes rest

/-- The text that a percent-encoded text stands for; broken bytes become U+FFFD. -/
def percentDecode (text : List Char) : List Char :=
  decodeLossy (percentBytes text)

end HyperSchema.Text
