import HyperSchema.Text.Hex

/-!
# Texts of a configuration document

Blanks, comments, keys and the four kinds of strings.  This file defines:

* `Toml.skipBlank`, `Toml.newline?`, `Toml.lineEnd?` and `Toml.skipLines`;
* `Toml.string?`, a string of any kind;
* `Toml.keyPath?`, a dotted key.

Each reader returns what it read and the rest of the text.
-/

namespace HyperSchema.Toml

/-! ## Blanks and lines -/

/-- A blank inside a line. -/
def isBlank (c : Char) : Bool := c == ' ' || c == '\t'

/-- The text behind blanks. -/
def skipBlank (text : List Char) : List Char := text.dropWhile isBlank

/-- The text behind a line break. -/
def newline? : List Char → Option (List Char)
  | '\n' :: rest => some rest
  | '\r' :: '\n' :: rest => some rest
  | _ => none

/-- A character that comments and strings may hold: no control character but the tabulator. -/
def isPlain (c : Char) : Bool :=
  c == '\t' || (32 ≤ c.toNat && c.toNat ≤ 126) || 128 ≤ c.toNat

/-- The text behind a comment, which starts with its sign. -/
def skipComment (text : List Char) : List Char :=
  match text with
  | '#' :: rest => rest.dropWhile isPlain
  | _ => text

/-- The text behind the end of a line: blanks, a comment, and a line break or the end of the
text. -/
def lineEnd? (text : List Char) : Option (List Char) :=
  match skipComment (skipBlank text) with
  | [] => some []
  | rest => newline? rest

/-- The text behind blanks, comments and line breaks; a comment has to end in a line break.  The
fuel bounds the number of lines. -/
def skipLines : Nat → List Char → Option (List Char)
  | 0, _ => none
  | fuel + 1, text =>
      match skipBlank text with
      | '#' :: rest => (newline? (skipComment ('#' :: rest))).bind (skipLines fuel)
      | '\n' :: rest => skipLines fuel rest
      | '\r' :: rest => (newline? ('\r' :: rest)).bind (skipLines fuel)
      | rest => some rest

/-! ## Strings -/

/-- A number of hexadecimal digits, after those read so far. -/
def hexDigits? : Nat → Nat → List Char → Option (Nat × List Char)
  | 0, code, text => some (code, text)
  | _ + 1, _, [] => none
  | count + 1, code, c :: rest =>
      match Text.hexValue? c with
      | some digit => hexDigits? count (code * 16 + digit) rest
      | none => none

/-- The character with a code of so many digits. -/
def codeEscape? (count : Nat) (text : List Char) : Option (Char × List Char) := do
  let (code, rest) ← hexDigits? count 0 text
  if code.isValidChar then some (Char.ofNat code, rest) else none

/-- The character behind a backslash. -/
def escape? : List Char → Option (Char × List Char)
  | 'b' :: rest => some ('\x08', rest)
  | 'f' :: rest => some ('\x0c', rest)
  | 'n' :: rest => some ('\n', rest)
  | 'r' :: rest => some ('\r', rest)
  | 't' :: rest => some ('\t', rest)
  | '"' :: rest => some ('"', rest)
  | '\\' :: rest => some ('\\', rest)
  | 'u' :: rest => codeEscape? 4 rest
  | 'U' :: rest => codeEscape? 8 rest
  | _ => none

/-- The inside of a string on one line; in a literal string the backslash is a character. -/
def lineString? (quote : Char) (isLiteral : Bool) :
    Nat → List Char → List Char → Option (String × List Char)
  | 0, _, _ => none
  | _ + 1, _, [] => none
  | fuel + 1, acc, c :: rest =>
      if c = quote then some (String.ofList acc.reverse, rest)
      else if c = '\\' && !isLiteral then
        match escape? rest with
        | some (decoded, rest) => lineString? quote isLiteral fuel (decoded :: acc) rest
        | none => none
      else if isPlain c then lineString? quote isLiteral fuel (c :: acc) rest
      else none

/-- The text behind a line break that a backslash hides, and behind all blanks and line breaks after
it. -/
def skipHidden? (text : List Char) : Option (List Char) :=
  (newline? (skipBlank text)).bind fun rest => skip (rest.length + 1) rest
where
  /-- The text behind blanks and line breaks. -/
  skip : Nat → List Char → Option (List Char)
    | 0, _ => none
    | fuel + 1, text =>
        let rest := skipBlank text
        match newline? rest with
        | some rest => skip fuel rest
        | none => some rest

/-- The inside of a string on several lines.  Up to two quotes may stand in front of the three that
close it; a line break counts as a line feed. -/
def blockString? (quote : Char) (isLiteral : Bool) :
    Nat → List Char → List Char → Option (String × List Char)
  | 0, _, _ => none
  | _ + 1, _, [] => none
  | fuel + 1, acc, c :: rest =>
      if c = quote then
        let count := ((c :: rest).takeWhile (· == quote)).length
        let behind := (c :: rest).dropWhile (· == quote)
        -- Of up to five quotes the last three close the string.
        if count < 3 then
          blockString? quote isLiteral fuel (List.replicate count quote ++ acc) behind
        else if count ≤ 5 then
          some (String.ofList (List.replicate (count - 3) quote ++ acc).reverse, behind)
        else none
      else if c = '\\' && !isLiteral then
        match skipHidden? rest with
        | some rest => blockString? quote isLiteral fuel acc rest
        | none =>
            match escape? rest with
            | some (decoded, rest) => blockString? quote isLiteral fuel (decoded :: acc) rest
            | none => none
      else
        match newline? (c :: rest) with
        | some rest => blockString? quote isLiteral fuel ('\n' :: acc) rest
        | none =>
            if isPlain c then blockString? quote isLiteral fuel (c :: acc) rest else none

/-- A string of one quote or of three. -/
def quoted? (quote : Char) (isLiteral : Bool) (allowBlock : Bool) (text : List Char) :
    Option (String × List Char) :=
  let fuel := text.length + 1
  match text with
  | a :: b :: c :: rest =>
      if allowBlock && a = quote && b = quote && c = quote then
        blockString? quote isLiteral fuel [] ((newline? rest).getD rest)
      else if a = quote then lineString? quote isLiteral fuel [] (b :: c :: rest)
      else none
  | a :: rest => if a = quote then lineString? quote isLiteral fuel [] rest else none
  | [] => none

/-- The sign around literal strings. -/
def apostrophe : Char := '\x27'

/-- A string. -/
def string? (allowBlock : Bool) (text : List Char) : Option (String × List Char) :=
  match text with
  | '"' :: _ => quoted? '"' false allowBlock text
  | c :: _ => if c = apostrophe then quoted? apostrophe true allowBlock text else none
  | [] => none

/-! ## Keys -/

/-- A character of a key without quotes. -/
def isBare (c : Char) : Bool :=
  c.isAlphanum || c == '-' || c == '_'

/-- One part of a key. -/
def keyPart? (text : List Char) : Option (String × List Char) :=
  match string? false text with
  | some found => some found
  | none =>
      let bare := text.takeWhile isBare
      if bare.isEmpty then none else some (String.ofList bare, text.dropWhile isBare)

/-- The greatest number of parts of a key, and the greatest depth of values. -/
def depthLimit : Nat := 79

/-- The parts of a dotted key, with blanks around them. -/
def keyParts? : Nat → List Char → Option (List String × List Char)
  | 0, _ => none
  | fuel + 1, text => do
      let (part, rest) ← keyPart? (skipBlank text)
      match skipBlank rest with
      | '.' :: rest =>
          let (parts, rest) ← keyParts? fuel rest
          some (part :: parts, rest)
      | rest => some ([part], rest)

/-- A dotted key. -/
def keyPath? (text : List Char) : Option (List String × List Char) :=
  keyParts? depthLimit text

end HyperSchema.Toml
