import HyperSchema.Decimal.Scale
import HyperSchema.Json.Basic
import HyperSchema.Text.Hex

/-!
# Reading JSON

The JSON grammar over characters.  This file defines:

* `Json.Reader.number`, `Json.Reader.stringBody` and `Json.Reader.value`, which return what they
  read and the rest of the text;
* `Json.parse?`, which reads a whole text whose arrays and objects nest at most to a given depth.

A repeated name in an object keeps its first place and takes its last value.
-/

namespace HyperSchema.Json

namespace Reader

/-- White space between tokens. -/
def isSpace (c : Char) : Bool :=
  c == ' ' || c == '\n' || c == '\t' || c == '\r'

/-- The text behind leading white space. -/
def skipSpace (text : List Char) : List Char :=
  text.dropWhile isSpace

/-! ## Numbers -/

/-- The greatest significand that is kept exactly. -/
def significandLimit : Nat := Nat.pow 2 64

/-- Reads digits into a significand.  Once a digit would take it beyond 64 bits, that digit and all
that follow are counted and not kept.  Returns the significand, the digits kept and the digits
dropped. -/
def significand : Nat → Nat → List Char → Nat × Nat × Nat
  | acc, kept, [] => (acc, kept, 0)
  | acc, kept, c :: rest =>
      let next := acc * 10 + (c.toNat - '0'.toNat)
      if next < significandLimit then significand next (kept + 1) rest
      else (acc, kept, rest.length + 1)

/-- Splits off the leading digits. -/
def digits (text : List Char) : List Char × List Char :=
  (text.takeWhile Char.isDigit, text.dropWhile Char.isDigit)

/-- Reads the exponent part, where there is one. -/
def exponentPart (text : List Char) : Option (Option Int × List Char) :=
  match text with
  | c :: rest =>
      if c == 'e' || c == 'E' then
        let (negative, rest) : Bool × List Char := match rest with
          | '+' :: rest => (false, rest)
          | '-' :: rest => (true, rest)
          | rest => (false, rest)
        let (found, rest) := digits rest
        if found.isEmpty then none
        else
          let n := found.foldl (fun n c => n * 10 + (c.toNat - '0'.toNat)) 0
          some (some (if negative then -(n : Int) else n), rest)
      else some (none, text)
  | [] => some (none, text)

/-- A double from a significand and an exponent. -/
def double (negative : Bool) (significand : Nat) (exponent : Int) : Option Number :=
  (Magnitude.scale significand exponent).map fun m => .double ⟨negative, m⟩

/-- An integer, or a double where the integer is out of range or a negative zero. -/
def integer (negative : Bool) (significand : Nat) : Option Number :=
  if !negative then some (.integer significand)
  else if significand = 0 || Nat.pow 2 63 < significand then double true significand 0
  else some (.integer (-(significand : Int)))

/-- Reads a number behind its sign.  Digits of the fraction are kept while they fit, also where
digits before the point were dropped. -/
def unsigned (negative : Bool) (text : List Char) : Option (Number × List Char) := do
  let (whole, rest) := digits text
  -- A number has digits, and a leading zero only if it is the only one.
  if whole.isEmpty || (whole.length > 1 && whole.head? == some '0') then none
  let (sig, _, dropped) := significand 0 0 whole
  match rest with
  | '.' :: rest =>
      let (fraction, rest) := digits rest
      if fraction.isEmpty then none
      let (sig, kept, _) := significand sig 0 fraction
      let (exponent, rest) ← exponentPart rest
      let found ← double negative sig (exponent.getD 0 + dropped - kept)
      some (found, rest)
  | _ =>
      let (exponent, rest) ← exponentPart rest
      let found ←
        if exponent.isNone && dropped = 0 then integer negative sig
        else double negative sig (exponent.getD 0 + dropped)
      some (found, rest)

/-- Reads a number. -/
def number (text : List Char) : Option (Number × List Char) :=
  match text with
  | '-' :: rest => unsigned true rest
  | _ => unsigned false text

/-! ## Strings -/

/-- Reads four hexadecimal digits. -/
def fourDigits (text : List Char) : Option (Nat × List Char) :=
  match text with
  | a :: b :: c :: d :: rest => do
      let a ← Text.hexValue? a
      let b ← Text.hexValue? b
      let c ← Text.hexValue? c
      let d ← Text.hexValue? d
      some (((a * 16 + b) * 16 + c) * 16 + d, rest)
  | _ => none

/-- Reads the digits behind `\u`; a leading surrogate must be followed by a trailing one. -/
def unicodeEscape (text : List Char) : Option (Char × List Char) := do
  let (n, rest) ← fourDigits text
  if 0xd800 ≤ n && n ≤ 0xdbff then
    match rest with
    | '\\' :: 'u' :: rest =>
        let (m, rest) ← fourDigits rest
        if 0xdc00 ≤ m && m ≤ 0xdfff then
          some (Char.ofNat (0x10000 + (n - 0xd800) * 0x400 + (m - 0xdc00)), rest)
        else none
    | _ => none
  else if 0xdc00 ≤ n && n ≤ 0xdfff then none
  else some (Char.ofNat n, rest)

/-- Reads what follows a backslash. -/
def escape (text : List Char) : Option (Char × List Char) :=
  match text with
  | '"' :: rest => some ('"', rest)
  | '\\' :: rest => some ('\\', rest)
  | '/' :: rest => some ('/', rest)
  | 'b' :: rest => some ('\x08', rest)
  | 'f' :: rest => some ('\x0c', rest)
  | 'n' :: rest => some ('\n', rest)
  | 'r' :: rest => some ('\r', rest)
  | 't' :: rest => some ('\t', rest)
  | 'u' :: rest => unicodeEscape rest
  | _ => none

/-- Reads a string behind its opening quote; the fuel bounds the number of characters. -/
def stringBody : Nat → List Char → List Char → Option (String × List Char)
  | 0, _, _ => none
  | _ + 1, _, [] => none
  | fuel + 1, acc, c :: rest =>
      if c == '"' then some (String.ofList acc.reverse, rest)
      else if c == '\\' then
        match escape rest with
        | some (e, rest) => stringBody fuel (e :: acc) rest
        | none => none
      else if c.toNat < 32 then none
      else stringBody fuel (c :: acc) rest

/-! ## Values -/

/-- The text behind a word, if it starts with the word. -/
def word (expected : List Char) (text : List Char) : Option (List Char) :=
  if text.take expected.length = expected then some (text.drop expected.length) else none

mutual

/-- Reads a value.  The depth is the number of levels that may still be opened; the fuel is more
than twice the length of the text. -/
def value : Nat → Nat → List Char → Option (Json × List Char)
  | 0, _, _ => none
  | fuel + 1, depth, text =>
      match skipSpace text with
      | '[' :: rest =>
          match depth with
          | 0 => none
          | depth + 1 =>
              match skipSpace rest with
              | ']' :: rest => some (.array [], rest)
              | rest => (items fuel depth [] rest).map fun (found, rest) => (.array found, rest)
      | '{' :: rest =>
          match depth with
          | 0 => none
          | depth + 1 =>
              match skipSpace rest with
              | '}' :: rest => some (.object [], rest)
              | rest =>
                  (members fuel depth [] rest).map fun (found, rest) => (.object found, rest)
      | '"' :: rest =>
          (stringBody fuel [] rest).map fun (text, rest) => (.string text, rest)
      | 'n' :: rest => (word ['u', 'l', 'l'] rest).map fun rest => (.null, rest)
      | 't' :: rest => (word ['r', 'u', 'e'] rest).map fun rest => (.bool true, rest)
      | 'f' :: rest => (word ['a', 'l', 's', 'e'] rest).map fun rest => (.bool false, rest)
      | rest => (number rest).map fun (n, rest) => (.number n, rest)

/-- Reads items up to the end of the array; those read so far are in reverse order. -/
def items : Nat → Nat → List Json → List Char → Option (List Json × List Char)
  | 0, _, _, _ => none
  | fuel + 1, depth, acc, text =>
      match value fuel depth text with
      | none => none
      | some (item, rest) =>
          match skipSpace rest with
          | ',' :: rest => items fuel depth (item :: acc) rest
          | ']' :: rest => some ((item :: acc).reverse, rest)
          | _ => none

/-- Reads members up to the end of the object; those read so far are in reverse order. -/
def members : Nat → Nat → List (String × Json) → List Char →
    Option (List (String × Json) × List Char)
  | 0, _, _, _ => none
  | fuel + 1, depth, acc, text =>
      match skipSpace text with
      | '"' :: rest =>
          match stringBody fuel [] rest with
          | none => none
          | some (name, rest) =>
              match skipSpace rest with
              | ':' :: rest =>
                  match value fuel depth rest with
                  | none => none
                  | some (found, rest) =>
                      match skipSpace rest with
                      | ',' :: rest => members fuel depth ((name, found) :: acc) rest
                      | '}' :: rest =>
                          some (Entries.ofList ((name, found) :: acc).reverse, rest)
                      | _ => none
              | _ => none
      | _ => none

end

end Reader

/-- Reads a text that is one JSON value with white space around it.  Arrays and objects may nest
`depth` levels deep. -/
def parse? (depth : Nat) (text : String) : Option Json :=
  let chars := text.toList
  match Reader.value (2 * chars.length + 2) depth chars with
  | some (found, rest) => if (Reader.skipSpace rest).isEmpty then some found else none
  | none => none

end HyperSchema.Json
