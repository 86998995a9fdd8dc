import HyperSchema.Decimal.Binary64

/-!
# Scaling by powers of ten

How a written significand and a power of ten become a double.  This file defines:

* `Magnitude.powerOfTen`, the double nearest to `10 ^ k`;
* `Magnitude.scale`, a natural times a power of ten, by one product or quotient of doubles.

The significand is rounded first and the product again, so the result is not always the double
nearest to the written number.
-/

namespace HyperSchema.Magnitude

/-- The double nearest to `10 ^ k`. -/
def powerOfTen (k : Nat) : Option Magnitude := round (Nat.pow 10 k) 1

/-- Divides by `10 ^ places`, in portions of at most `10 ^ 308`.  Three portions leave zero of every
significand of 64 bits. -/
def scaleDown : Nat → Magnitude → Nat → Option Magnitude
  | 0, _, _ => some zero
  | fuel + 1, x, places =>
      if x.isZero then some zero
      else if places ≤ 308 then
        (powerOfTen places).bind x.div
      else
        ((powerOfTen 308).bind x.div).bind fun y => scaleDown fuel y (places - 308)

/-- `significand * 10 ^ exponent` as a double; `none` if it is too large. -/
def scale (significand : Nat) (exponent : Int) : Option Magnitude := do
  -- Every step rounds, as the steps of a machine with doubles do.
  let x ← ofNat significand
  if exponent < 0 then
    scaleDown 4 x (-exponent).toNat
  else if x.isZero then
    some zero
  else if exponent ≤ 308 then
    let p ← powerOfTen exponent.toNat
    x.mul p
  else
    none

end HyperSchema.Magnitude
