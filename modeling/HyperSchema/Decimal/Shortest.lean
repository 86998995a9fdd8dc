import HyperSchema.Decimal.Binary64

/-!
# Shortest decimals

The decimal with the fewest digits that still denotes a given double, and its layout as text.
This file defines:

* `Magnitude.Denotes`, the reals that round to a magnitude, tested exactly on decimals;
* `Magnitude.shortest`, the fewest digits that denote it, of two candidates the nearer;
* `Layout`, the choices that turn digits and an exponent into text, and `Layout.render`.
-/

namespace HyperSchema

/-- The decimal `digits * 10 ^ exponent`. -/
structure Decimal where
  digits : Nat
  exponent : Int
deriving DecidableEq, Repr

namespace Decimal

/-- Compares a decimal with `n * 2 ^ q`, exactly. -/
def compareBinary (d : Decimal) (n : Nat) (q : Int) : Ordering :=
  compare (d.digits * Nat.pow 10 d.exponent.toNat * Nat.pow 2 (-q).toNat)
    (n * Nat.pow 2 q.toNat * Nat.pow 10 (-d.exponent).toNat)

/-- The same value without trailing zero digits; the fuel is the number of digits. -/
def strip : Nat → Decimal → Decimal
  | 0, d => d
  | fuel + 1, d =>
      if d.digits % 10 == 0 && d.digits != 0 then strip fuel ⟨d.digits / 10, d.exponent + 1⟩ else d

end Decimal

namespace Magnitude

/-! ## Which digits -/

/-- Whether a decimal lies among the reals that round to this magnitude.  The interval reaches half
way to both neighbours and holds its ends exactly when the significand is even; below a power of two
the lower neighbour is nearer. -/
def Denotes (x : Magnitude) (d : Decimal) : Bool :=
  let narrow := x.significand == Nat.pow 2 52 && leastExponent < x.exponent
  let low := if narrow then 4 * x.significand - 1 else 4 * x.significand - 2
  let high := 4 * x.significand + 2
  let closed := x.significand % 2 == 0
  let fromLow := d.compareBinary low (x.exponent - 2)
  let fromHigh := d.compareBinary high (x.exponent - 2)
  (fromLow == .gt || (closed && fromLow == .eq)) && (fromHigh == .lt || (closed && fromHigh == .eq))

/-- The least `k` at or above `k₀` with the magnitude below `10 ^ k`, sought in `fuel` steps. -/
def decimalScale (x : Magnitude) : Nat → Int → Int
  | 0, k => k
  | fuel + 1, k =>
      if Decimal.compareBinary ⟨1, k⟩ x.significand x.exponent == .gt then k
      else decimalScale x fuel (k + 1)

/-- The best decimal on the grid of multiples of `10 ^ e`: the neighbour of the value that denotes
it, of two the nearer, and on a tie the even one. -/
def onGrid (x : Magnitude) (e : Int) : Option Decimal :=
  let num := x.significand * Nat.pow 2 x.exponent.toNat * Nat.pow 10 (-e).toNat
  let den := Nat.pow 2 (-x.exponent).toNat * Nat.pow 10 e.toNat
  let below := num / den
  let twice := 2 * (num % den)
  let low : Decimal := ⟨below, e⟩
  let high : Decimal := ⟨below + 1, e⟩
  match x.Denotes low, x.Denotes high with
  | true, false => some low
  | false, true => some high
  | false, false => none
  | true, true =>
      if twice < den || (twice == den && below % 2 == 0) then some low else some high

/-- The first grid with a hit, from one digit to `digits + fuel`. -/
def search (x : Magnitude) (scale : Int) : Nat → Nat → Option Decimal
  | 0, _ => none
  | fuel + 1, digits =>
      match x.onGrid (scale - digits) with
      | some d => some d
      | none => search x scale fuel (digits + 1)

/-- The decimal with the fewest digits among those that denote the magnitude, without trailing
zeros.  Seventeen digits always suffice. -/
def shortest (x : Magnitude) : Decimal :=
  if x.isZero then ⟨0, 0⟩
  else
    let binaryScale : Int := x.significand.log2 + x.exponent
    let start := binaryScale * 30103 / 100000 - 1
    let scale := x.decimalScale 5 start
    match x.search scale 17 1 with
    | some d => d.strip 18
    | none => ⟨0, 0⟩

end Magnitude

/-! ## Layout -/

/-- How digits and an exponent become text. -/
structure Layout where
  /-- Whether a value whose leading digit stands at `10 ^ k` is written without an exponent. -/
  positional : Int → Bool
  /-- What stands between the digits and an exponent that is not negative. -/
  exponentMark : String
  /-- What stands between the digits and the absolute value of a negative exponent. -/
  negativeExponentMark : String

namespace Layout

/-- Digits written with the point behind position `k`, with at least one digit on each side. -/
def positionalText (digits : List Char) (k : Int) : List Char :=
  if k < 0 then
    '0' :: '.' :: (List.replicate (-k - 1).toNat '0' ++ digits)
  else
    let places := k.toNat + 1
    let padded := digits ++ List.replicate (places - digits.length) '0'
    let fraction := padded.drop places
    padded.take places ++ '.' :: (if fraction.isEmpty then ['0'] else fraction)

/-- The text of a decimal whose digits have no trailing zero. -/
def render (layout : Layout) (d : Decimal) : List Char :=
  let digits := (Nat.repr d.digits).toList
  if d.digits = 0 then ['0', '.', '0']
  else
    let k : Int := d.exponent + digits.length - 1
    if layout.positional k then
      positionalText digits k
    else
      let body := match digits with
        | [] => []
        | [single] => [single]
        | first :: rest => first :: '.' :: rest
      if k < 0 then
        body ++ layout.negativeExponentMark.toList ++ (Nat.repr k.natAbs).toList
      else
        body ++ layout.exponentMark.toList ++ (Nat.repr k.natAbs).toList

end Layout

/-- The text of a double in a layout. -/
def Binary64.render (layout : Layout) (x : Binary64) : String :=
  String.ofList ((if x.negative then ['-'] else []) ++ layout.render x.magnitude.shortest)

end HyperSchema
