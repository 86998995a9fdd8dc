/-!
# Parts of texts

This file defines:

* `Text.hasInfix`, whether a text stands somewhere in another;
* `Text.dropTrailing`, a text without some character at its end.
-/

namespace HyperSchema.Text

/-- Whether a pattern stands somewhere in a text. -/
def hasInfix (pattern : List Char) : List Char → Bool
  | [] => pattern.isEmpty
  | c :: rest => pattern.isPrefixOf (c :: rest) || hasInfix pattern rest

/-- The text without the copies of a character at its end. -/
def dropTrailing (c : Char) (text : List Char) : List Char :=
  (text.reverse.dropWhile fun other => other == c).reverse

end HyperSchema.Text
