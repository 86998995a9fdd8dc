/-!
# Hexadecimal digits

This file defines:

* `Text.hexValue?`, the value of a digit in either case;
* `Text.hexDigit` and `Text.hex`, digits in lower case;
* `Text.hexPadded`, at least a given number of digits.
-/

namespace HyperSchema.Text

/-- The value of a hexadecimal digit. -/
def hexValue? (c : Char) : Option Nat :=
  if '0' ≤ c && c ≤ '9' then some (c.toNat - '0'.toNat)
  else if 'a' ≤ c && c ≤ 'f' then some (c.toNat - 'a'.toNat + 10)
  else if 'A' ≤ c && c ≤ 'F' then some (c.toNat - 'A'.toNat + 10)
  else none

/-- The lower-case digit of a value below sixteen. -/
def hexDigit (n : Nat) : Char :=
  if n < 10 then Char.ofNat ('0'.toNat + n) else Char.ofNat ('a'.toNat + (n - 10))

/-- The lowest `count` hexadecimal digits of a number. -/
def hexPadded : Nat → Nat → List Char
  | 0, _ => []
  | count + 1, n => hexPadded count (n / 16) ++ [hexDigit (n % 16)]

/-- The hexadecimal digits of a number, without leading zeros. -/
def hex (n : Nat) : List Char :=
  hexPadded (n.log2 / 4 + 1) n

end HyperSchema.Text
