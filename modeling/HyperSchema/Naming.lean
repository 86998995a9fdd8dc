import HyperSchema.Text.Uppercase

/-!
# Naming

Words inside identifiers, and the cases that join them again.  This file defines:

* `Naming.words`, which splits at `_`, `-`, `.`, blanks and at changes from lower to upper case;
* `Naming.pascalCase`, `Naming.camelCase` and `Naming.kebabCase`;
* `Naming.plural`, the English plural of a noun.

The words are in lower case as far as ASCII goes; capitals outside ASCII neither split nor change.
-/

namespace HyperSchema.Naming

/-! ## Words -/

/-- The characters that separate words. -/
def isSeparator (c : Char) : Bool :=
  c == '_' || c == '-' || c == '.' || c == ' '

/-- The characters after which a capital starts a new word. -/
def endsLower (c : Char) : Bool :=
  c.isLower || c.isDigit

/-- Puts a word in front of others, unless it is empty. -/
def consWord (word : List Char) (words : List (List Char)) : List (List Char) :=
  if word.isEmpty then words else word :: words

/-- The rest of the word that a text continues, and the words behind it.  The flag tells whether the
character before the text ends in lower case. -/
def segments : Bool → List Char → List Char × List (List Char)
  | _, [] => ([], [])
  | afterLower, c :: rest =>
      if isSeparator c then
        let (word, words) := segments false rest
        ([], consWord word words)
      else
        let (word, words) := segments (endsLower c) rest
        if c.isUpper && afterLower then ([], (Text.lowerAscii c :: word) :: words)
        else (Text.lowerAscii c :: word, words)

/-- The words of an identifier, in lower case. -/
def words (text : List Char) : List (List Char) :=
  let (word, words) := segments false text
  consWord word words

/-! ## Cases -/

/-- All words capitalized and joined. -/
def pascalCase (text : String) : String :=
  String.ofList ((words text.toList).flatMap Text.capitalize)

/-- The first word as it is, the others capitalized. -/
def camelCase (text : String) : String :=
  match words text.toList with
  | [] => ""
  | first :: rest => String.ofList (first ++ rest.flatMap Text.capitalize)

/-- The words joined by hyphens. -/
def kebabCase (text : String) : String :=
  String.ofList (['-'].intercalate (words text.toList))

/-- The text with its first character in upper case. -/
def capitalizeFirst (text : String) : String :=
  String.ofList (Text.capitalize text.toList)

/-! ## Plurals -/

/-- Whether a text ends in a given text. -/
def endsWith (text ending : List Char) : Bool :=
  ending.isSuffixOf text

/-- The plural of a noun.  After a sibilant it takes `es`; a noun in a single `s` is its own plural;
`y` behind a consonant becomes `ies`; all others take `s`. -/
def plural (noun : String) : String :=
  let chars := noun.toList
  let lower := chars.map Text.lowerAscii
  if endsWith lower ['s', 's'] || endsWith lower ['x'] || endsWith lower ['c', 'h'] ||
      endsWith lower ['s', 'h'] || endsWith lower ['z'] then
    noun ++ "es"
  else if endsWith lower ['s'] then
    noun
  else
    match chars.reverse with
    | 'y' :: stem =>
        match stem with
        | [] => "ies"
        | last :: _ =>
            if ['a', 'e', 'i', 'o', 'u'].contains last then noun ++ "s"
            else String.ofList (stem.reverse ++ ['i', 'e', 's'])
    | _ => noun ++ "s"

end HyperSchema.Naming
