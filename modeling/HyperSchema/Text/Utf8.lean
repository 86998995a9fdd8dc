/-!
# UTF-8

Sizes, cuts and decoding of the UTF-8 form of a text.  This file defines:

* `Text.utf8Size`, the number of bytes of a text;
* `Text.takeBytes`, the longest prefix of at most a number of bytes;
* `Text.utf8Bytes`, the bytes of a text;
* `Text.decodeLossy`, which reads bytes and puts U+FFFD for each maximal broken sequence.
-/

namespace HyperSchema.Text

/-- The number of bytes of a text. -/
def utf8Size : List Char → Nat
  | [] => 0
  | c :: rest => c.utf8Size + utf8Size rest

/-- The longest prefix of at most `limit` bytes. -/
def takeBytes : Nat → List Char → List Char
  | _, [] => []
  | limit, c :: rest =>
      if c.utf8Size ≤ limit then c :: takeBytes (limit - c.utf8Size) rest else []

/-- The bytes of a text. -/
def utf8Bytes (text : List Char) : List Nat :=
  text.flatMap (fun c => (String.utf8EncodeChar c).map UInt8.toNat)

/-! ## Decoding -/

/-- Stands for a broken sequence. -/
def replacement : Char := Char.ofNat 0xfffd

/-- A continuation byte. -/
def isTail (b : Nat) : Bool := 0x80 ≤ b && b ≤ 0xbf

/-- The bounds of the second byte after a first byte of three. -/
def secondOfThree (b : Nat) : Nat × Nat :=
  if b = 0xe0 then (0xa0, 0xbf) else if b = 0xed then (0x80, 0x9f) else (0x80, 0xbf)

/-- The bounds of the second byte after a first byte of four. -/
def secondOfFour (b : Nat) : Nat × Nat :=
  if b = 0xf0 then (0x90, 0xbf) else if b = 0xf4 then (0x80, 0x8f) else (0x80, 0xbf)

/-- Whether a byte lies within bounds. -/
def within (bounds : Nat × Nat) (b : Nat) : Bool := bounds.1 ≤ b && b ≤ bounds.2

/-- The first character of a byte sequence and the number of bytes behind the first that it takes.
A sequence that breaks off gives the replacement and takes the bytes that were still right. -/
def decodeFirst (b : Nat) (rest : List Nat) : Char × Nat :=
  if b < 0x80 then (Char.ofNat b, 0)
  else if within (0xc2, 0xdf) b then
    match rest with
    | b₁ :: _ =>
        if isTail b₁ then (Char.ofNat ((b - 0xc0) * 64 + (b₁ - 0x80)), 1) else (replacement, 0)
    | [] => (replacement, 0)
  else if within (0xe0, 0xef) b then
    match rest with
    | b₁ :: more =>
        if within (secondOfThree b) b₁ then
          match more with
          | b₂ :: _ =>
              if isTail b₂ then
                (Char.ofNat ((b - 0xe0) * 4096 + (b₁ - 0x80) * 64 + (b₂ - 0x80)), 2)
              else (replacement, 1)
          | [] => (replacement, 1)
        else (replacement, 0)
    | [] => (replacement, 0)
  else if within (0xf0, 0xf4) b then
    match rest with
    | b₁ :: more =>
        if within (secondOfFour b) b₁ then
          match more with
          | b₂ :: more =>
              if isTail b₂ then
                match more with
                | b₃ :: _ =>
                    if isTail b₃ then
                      (Char.ofNat ((b - 0xf0) * 262144 + (b₁ - 0x80) * 4096 + (b₂ - 0x80) * 64 +
                        (b₃ - 0x80)), 3)
                    else (replacement, 2)
                | [] => (replacement, 2)
              else (replacement, 1)
          | [] => (replacement, 1)
        else (replacement, 0)
    | [] => (replacement, 0)
  else (replacement, 0)

/-- Reads bytes as UTF-8; each maximal broken sequence becomes one replacement character. -/
def decodeLossy : List Nat → List Char
  | [] => []
  | b :: rest =>
      let (c, used) := decodeFirst b rest
      c :: decodeLossy (rest.drop used)
termination_by bytes => bytes.length
decreasing_by simp only [List.length_drop, List.length_cons]; omega

end HyperSchema.Text
