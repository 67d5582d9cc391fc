/-!
# Reading bytes as UTF-8

Bytes that are no UTF-8 text are read with U+FFFD in place of each *maximal subpart*: the
longest run of bytes that starts some character and cannot be completed by the byte after
it, or a single byte that starts none. A byte order mark is kept.
-/

namespace ResourceLocator.Text.Utf8

/-- What the bytes read so far promise: how many continuation bytes are owed, the range of
the next one, and the bits collected. -/
structure Pending where
  /-- Continuation bytes still owed, at least one. -/
  owed : Nat
  /-- Least value of the next byte. -/
  low : Nat
  /-- Greatest value of the next byte. -/
  high : Nat
  /-- The bits of the code point read so far. -/
  bits : Nat

/-- What a first byte above the ASCII range promises, if it starts a character at all. -/
def Pending.ofFirst? (b : Nat) : Option Pending :=
  if 0xC2 ≤ b && b ≤ 0xDF then some ⟨1, 0x80, 0xBF, b % 0x20⟩
  else if b == 0xE0 then some ⟨2, 0xA0, 0xBF, 0⟩
  else if b == 0xED then some ⟨2, 0x80, 0x9F, 0xD⟩
  else if 0xE1 ≤ b && b ≤ 0xEF then some ⟨2, 0x80, 0xBF, b % 0x10⟩
  else if b == 0xF0 then some ⟨3, 0x90, 0xBF, 0⟩
  else if 0xF1 ≤ b && b ≤ 0xF3 then some ⟨3, 0x80, 0xBF, b % 8⟩
  else if b == 0xF4 then some ⟨3, 0x80, 0x8F, 4⟩
  else none

/-- The character put in place of a maximal subpart. -/
def replacement : Char := '\ufffd'

/-- Reads the rest of the bytes; `pending` is what the bytes before promise. -/
def decodeFrom (pending : Option Pending) : List UInt8 → List Char
  | [] => match pending with
    | none => []
    | some _ => [replacement]
  | byte :: rest =>
    let b := byte.toNat
    let start : List Char :=
      if b < 0x80 then Char.ofNat b :: decodeFrom none rest
      else match Pending.ofFirst? b with
        | some p => decodeFrom (some p) rest
        | none => replacement :: decodeFrom none rest
    match pending with
    | none => start
    | some p =>
      if p.low ≤ b && b ≤ p.high then
        let bits := p.bits * 0x40 + b % 0x40
        if p.owed == 1 then Char.ofNat bits :: decodeFrom none rest
        else decodeFrom (some ⟨p.owed - 1, 0x80, 0xBF, bits⟩) rest
      else replacement :: start

/-- The text of the bytes, with U+FFFD for what is no UTF-8. -/
def decode (bytes : List UInt8) : String :=
  String.ofList (decodeFrom none bytes)

end ResourceLocator.Text.Utf8
