import HyperSchema.Decimal.Binary64
import HyperSchema.Setting

/-!
# Numbers and dates of a configuration document

This file defines:

* `Toml.dateTime?`, a date, a time or both, in its normal spelling;
* `Toml.float?`, a number with a fraction or an exponent, or one of the special words;
* `Toml.integer?`, an integer in one of four bases, of at most 64 bits;
* `Toml.numeric?`, the three together.
-/

namespace HyperSchema.Toml

/-! ## Digits -/

/-- The value of decimal digits. -/
def decimalValue (digits : List Char) : Nat :=
  digits.foldl (fun n c => n * 10 + (c.toNat - '0'.toNat)) 0

/-- A number of decimal digits. -/
def fixedDigits? (count : Nat) (text : List Char) : Option (List Char × List Char) :=
  let found := text.take count
  if found.length = count && found.all Char.isDigit then some (found, text.drop count) else none

/-- A number of decimal digits whose value lies between bounds. -/
def boundedDigits? (count low high : Nat) (text : List Char) : Option (List Char × List Char) := do
  let (found, rest) ← fixedDigits? count text
  let n := decimalValue found
  if low ≤ n && n ≤ high then some (found, rest) else none

/-- The text behind a character. -/
def after? (c : Char) : List Char → Option (List Char)
  | d :: rest => if d = c then some rest else none
  | [] => none

/-- Digits of a class, at least one, with single underscores between them; the underscores are left
out.  An underscore that no digit follows is not read. -/
def groupedDigits? (isDigit : Char → Bool) (text : List Char) : Option (List Char × List Char) :=
  match text with
  | c :: rest => if isDigit c then some (more [c] rest) else none
  | [] => none
where
  /-- The digits behind those read so far, which are in reverse order. -/
  more : List Char → List Char → List Char × List Char
    | acc, '_' :: c :: rest =>
        if isDigit c then more (c :: acc) rest else (acc.reverse, '_' :: c :: rest)
    | acc, c :: rest => if isDigit c then more (c :: acc) rest else (acc.reverse, c :: rest)
    | acc, [] => (acc.reverse, [])

/-! ## Dates and times -/

/-- The number of days of a month. -/
def daysOf (year month : Nat) : Nat :=
  if month = 2 then
    if year % 4 = 0 && (year % 100 != 0 || year % 400 = 0) then 29 else 28
  else if [4, 6, 9, 11].contains month then 30
  else 31

/-- A date. -/
def date? (text : List Char) : Option (List Char × List Char) := do
  let (year, rest) ← fixedDigits? 4 text
  let rest ← after? '-' rest
  let (month, rest) ← boundedDigits? 2 1 12 rest
  let rest ← after? '-' rest
  let (day, rest) ← boundedDigits? 2 1 (daysOf (decimalValue year) (decimalValue month)) rest
  some (year ++ ['-'] ++ month ++ ['-'] ++ day, rest)

/-- The fraction of a second, to nine digits and without trailing zeros. -/
def secondFraction (text : List Char) : List Char × List Char :=
  match text with
  | '.' :: rest =>
      let found := rest.takeWhile Char.isDigit
      let kept := ((found.take 9).reverse.dropWhile (· == '0')).reverse
      if found.isEmpty then ([], text)
      else (if kept.isEmpty then [] else '.' :: kept, rest.dropWhile Char.isDigit)
  | _ => ([], text)

/-- A time of day. -/
def time? (text : List Char) : Option (List Char × List Char) := do
  let (hour, rest) ← boundedDigits? 2 0 23 text
  let rest ← after? ':' rest
  let (minute, rest) ← boundedDigits? 2 0 59 rest
  let rest ← after? ':' rest
  let (second, rest) ← boundedDigits? 2 0 60 rest
  let (fraction, rest) := secondFraction rest
  some (hour ++ [':'] ++ minute ++ [':'] ++ second ++ fraction, rest)

/-- The distance from universal time. -/
def offset? (text : List Char) : Option (List Char × List Char) :=
  match text with
  | sign :: rest =>
      if sign = 'Z' || sign = 'z' then some (['Z'], rest)
      else if sign = '+' || sign = '-' then do
        let (hour, rest) ← boundedDigits? 2 0 23 rest
        let rest ← after? ':' rest
        let (minute, rest) ← boundedDigits? 2 0 59 rest
        let isZero := decimalValue hour = 0 && decimalValue minute = 0
        some ((if isZero then '+' else sign) :: (hour ++ [':'] ++ minute), rest)
      else none
  | [] => none

/-- The time and the distance from universal time behind a date, where there are any. -/
def timeBehind (text : List Char) : List Char × List Char :=
  match text with
  | c :: rest =>
      if c = 'T' || c = 't' || c = ' ' then
        match time? rest with
        | some (time, rest) =>
            match offset? rest with
            | some (offset, rest) => ('T' :: (time ++ offset), rest)
            | none => ('T' :: time, rest)
        | none => ([], text)
      else ([], text)
  | [] => ([], text)

/-- A date, a time or both. -/
def dateTime? (text : List Char) : Option (List Char × List Char) :=
  match date? text with
  | some (date, rest) =>
      let (time, rest) := timeBehind rest
      some (date ++ time, rest)
  | none => time? text

/-! ## Numbers -/

/-- A sign: whether it is a minus, and the text behind it. -/
def sign (text : List Char) : Bool × List Char :=
  match text with
  | '-' :: rest => (true, rest)
  | '+' :: rest => (false, rest)
  | _ => (false, text)

/-- Decimal digits without a leading zero. -/
def decimalDigits? (text : List Char) : Option (List Char × List Char) :=
  match text with
  | '0' :: rest => some (['0'], rest)
  | _ => groupedDigits? Char.isDigit text

/-- The exponent of a number, where there is one. -/
def exponent? (text : List Char) : Option (Int × List Char) :=
  match text with
  | c :: rest =>
      if c = 'e' || c = 'E' then
        let (negative, rest) := sign rest
        (groupedDigits? Char.isDigit rest).map fun (found, rest) =>
          (if negative then -(decimalValue found : Int) else decimalValue found, rest)
      else none
  | [] => none

/-- Whether digits times a power of ten round to a finite double. -/
def isFinite (digits : List Char) (exponent : Int) : Bool :=
  let significant := digits.dropWhile (· == '0')
  let leading : Int := exponent + significant.length
  if significant.isEmpty || leading < 300 then true
  else if 310 < leading then false
  else
    (Magnitude.round (decimalValue significant * Nat.pow 10 exponent.toNat)
      (Nat.pow 10 (-exponent).toNat)).isSome

/-- A number with a fraction or an exponent.  A positive number beyond the doubles is refused. -/
def decimalFloat? (text : List Char) : Option (List Char) := do
  let (negative, rest) := sign text
  let (whole, rest) ← decimalDigits? rest
  match rest with
  | '.' :: more =>
      let (fraction, rest) ← groupedDigits? Char.isDigit more
      let (exponent, rest) := (exponent? rest).getD (0, rest)
      if negative || isFinite (whole ++ fraction) (exponent - fraction.length) then some rest
      else none
  | _ =>
      let (exponent, rest) ← exponent? rest
      if negative || isFinite whole exponent then some rest else none

/-- One of the words for infinity and for no number. -/
def specialFloat? (text : List Char) : Option (List Char) :=
  match (sign text).2 with
  | 'i' :: 'n' :: 'f' :: rest => some rest
  | 'n' :: 'a' :: 'n' :: rest => some rest
  | _ => none

/-- The text behind a number that is not an integer. -/
def float? (text : List Char) : Option (List Char) :=
  match decimalFloat? text with
  | some rest => some rest
  | none => specialFloat? text

/-- A digit of base two. -/
def isBinaryDigit (c : Char) : Bool := c == '0' || c == '1'

/-- A digit of base eight. -/
def isOctalDigit (c : Char) : Bool := '0' ≤ c && c ≤ '7'

/-- A digit of base sixteen. -/
def isHexDigit (c : Char) : Bool :=
  c.isDigit || ('a' ≤ c && c ≤ 'f') || ('A' ≤ c && c ≤ 'F')

/-- The value of a digit of any base. -/
def digitValue (c : Char) : Nat :=
  if c.isDigit then c.toNat - '0'.toNat
  else if c.isLower then c.toNat - 'a'.toNat + 10
  else c.toNat - 'A'.toNat + 10

/-- An integer in a base other than ten. -/
def based? (base : Nat) (isDigit : Char → Bool) (text : List Char) : Option (Int × List Char) := do
  let (found, rest) ← groupedDigits? isDigit text
  let n := found.foldl (fun n c => n * base + digitValue c) 0
  if n < Nat.pow 2 63 then some (n, rest) else none

/-- An integer. -/
def integer? (text : List Char) : Option (Int × List Char) :=
  match text with
  | '0' :: 'x' :: rest => based? 16 isHexDigit rest
  | '0' :: 'o' :: rest => based? 8 isOctalDigit rest
  | '0' :: 'b' :: rest => based? 2 isBinaryDigit rest
  | _ => do
      let (negative, rest) := sign text
      let (found, rest) ← decimalDigits? rest
      let n := decimalValue found
      if negative then
        if n ≤ Nat.pow 2 63 then some (-(n : Int), rest) else none
      else if n < Nat.pow 2 63 then some (n, rest) else none

/-- The name of the only entry of a date: a date is a record that holds its text. -/
def dateKey : String := "$__toml_private_datetime"

/-- A date, a number or an integer. -/
def numeric? (text : List Char) : Option (Setting × List Char) :=
  match dateTime? text with
  | some (found, rest) => some (.record [(dateKey, .text (String.ofList found))], rest)
  | none =>
      match float? text with
      | some rest => some (.other, rest)
      | none => (integer? text).map fun (n, rest) => (.integer n, rest)

end HyperSchema.Toml
