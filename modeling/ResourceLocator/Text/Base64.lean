import ResourceLocator.Text.Units

/-!
# Bytes in base 64

Each character stands for six bits. Two alphabets, which differ in their last two characters, are
read alike; other characters do not count, and an equals sign ends the text. Bits that make no
whole byte are dropped. Of a 16-bit unit only the low byte is looked at, so that U+0141 is read as
the letter A.
-/

namespace ResourceLocator.Text.Base64

/-- The six bits of a character. -/
def bits? (c : Char) : Option Nat :=
  if c.isUpper then some (c.toNat - 'A'.toNat)
  else if c.isLower then some (c.toNat - 'a'.toNat + 26)
  else if c.isDigit then some (c.toNat - '0'.toNat + 52)
  else if c == '+' || c == '-' then some 62
  else if c == '/' || c == '_' then some 63
  else none

/-- The bytes of groups of six bits; `pending` holds `count` bits that no byte has been made of. -/
def bytesOf (pending count : Nat) : List Nat → List UInt8
  | [] => []
  | b :: rest =>
    let pending := pending * 64 + b
    let count := count + 6
    if 8 ≤ count then
      let unit := 2 ^ (count - 8)
      UInt8.ofNat (pending / unit) :: bytesOf (pending % unit) (count - 8) rest
    else bytesOf pending count rest

/-- The low bytes of the units of a text, each as a character. -/
def lowBytes (cs : List Char) : List Char :=
  (cs.flatMap charUnits).map fun unit ↦ Char.ofNat (unit % 256)

/-- The bytes of a text. -/
def decode (cs : List Char) : List UInt8 :=
  bytesOf 0 0 (((lowBytes cs).takeWhile (· ≠ '=')).filterMap bits?)

/-- The characters of the first alphabet. -/
def alphabet : List Char :=
  "ABCDEFGHIJKLMNOPQRSTUVWXYZabcdefghijklmnopqrstuvwxyz0123456789+/".toList

/-- A character for six bits. -/
def charOf (n : Nat) : Char := alphabet.getD (n % 64) 'A'

/-- The text of bytes, filled up with equals signs. -/
def encode : List UInt8 → List Char
  | a :: b :: c :: rest =>
    let n := a.toNat * 65536 + b.toNat * 256 + c.toNat
    charOf (n / 262144) :: charOf (n / 4096) :: charOf (n / 64) :: charOf n :: encode rest
  | [a, b] =>
    let n := a.toNat * 65536 + b.toNat * 256
    [charOf (n / 262144), charOf (n / 4096), charOf (n / 64), '=']
  | [a] =>
    let n := a.toNat * 65536
    [charOf (n / 262144), charOf (n / 4096), '=', '=']
  | [] => []

end ResourceLocator.Text.Base64
