/-!
# Binary64: doubles as exact numbers

The finite values of the 64-bit binary format, held as a sign and an exact magnitude `m * 2 ^ q`.
This file defines:

* `Magnitude`, a magnitude of at most 53 bits on the format's grid;
* `Magnitude.round`, the magnitude nearest to a quotient of naturals, ties to even;
* `Magnitude.mul` and `Magnitude.div`, the format's product and quotient;
* `Binary64`, a magnitude with a sign.

No machine float is involved: every step is arithmetic on `Nat` and `Int`.
-/

namespace HyperSchema

/-- A finite magnitude `significand * 2 ^ exponent`.  The significand has at most 53 bits, and fewer
only where the exponent is the least one. -/
structure Magnitude where
  significand : Nat
  exponent : Int
deriving DecidableEq, Repr

namespace Magnitude

/-- The least exponent of the grid. -/
def leastExponent : Int := -1074

/-- The greatest exponent of a finite value. -/
def greatestExponent : Int := 971

def zero : Magnitude := ⟨0, leastExponent⟩

def isZero (x : Magnitude) : Bool := x.significand == 0

/-- `num / den` to the nearest natural, a half to the even neighbour. -/
def roundHalfEven (num den : Nat) : Nat :=
  let whole := num / den
  let twice := 2 * (num % den)
  if den < twice || (twice == den && whole % 2 == 1) then whole + 1 else whole

/-- The magnitude nearest to `num / den`, ties to even; `none` beyond the greatest finite value.
The exponent is the one that leaves 53 bits before the point, but not below the grid's least. -/
def round (num den : Nat) : Option Magnitude :=
  if num = 0 then
    some zero
  else
    let guess : Int := (num.log2 : Int) - den.log2 - 53
    let scaled (q : Int) : Nat × Nat := (num * Nat.pow 2 (-q).toNat, den * Nat.pow 2 q.toNat)
    let (n, d) := scaled guess
    let exact := if n / d < Nat.pow 2 53 then guess else guess + 1
    let q := max exact leastExponent
    let (n, d) := scaled q
    let m := roundHalfEven n d
    let (m, q) := if m = Nat.pow 2 53 then (Nat.pow 2 52, q + 1) else (m, q)
    if greatestExponent < q then none else some ⟨m, q⟩

/-- The magnitude nearest to a natural. -/
def ofNat (n : Nat) : Option Magnitude := round n 1

/-- The value as a quotient of naturals. -/
def toQuotient (x : Magnitude) : Nat × Nat :=
  (x.significand * Nat.pow 2 x.exponent.toNat, Nat.pow 2 (-x.exponent).toNat)

/-- The product, rounded once. -/
def mul (x y : Magnitude) : Option Magnitude :=
  let (a, b) := x.toQuotient
  let (c, d) := y.toQuotient
  round (a * c) (b * d)

/-- The quotient by a positive magnitude, rounded once. -/
def div (x y : Magnitude) : Option Magnitude :=
  let (a, b) := x.toQuotient
  let (c, d) := y.toQuotient
  round (a * d) (b * c)

end Magnitude

/-- A finite double; zero has both signs. -/
structure Binary64 where
  negative : Bool
  magnitude : Magnitude
deriving DecidableEq, Repr

end HyperSchema
