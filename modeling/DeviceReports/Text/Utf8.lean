import DeviceReports.Text.Units

/-!
# Text as bytes

Encoding writes each character as one to four bytes. Decoding accepts every byte sequence:
a byte that no character can continue ends the one begun before it, which then reads as a
single replacement character, and one byte-order mark at the very start is dropped.
-/

set_option autoImplicit false

namespace DeviceReports.Text

abbrev Bytes := List UInt8

/-- The bytes of a text, each half that stands alone written as the replacement character. -/
def encode (t : Text) : Bytes := (chars t).flatMap String.utf8EncodeChar

/-- A character that has begun: how many bytes it still needs, the range of the next one, and
the bits read so far. -/
structure Begun where
  missing : Nat
  low : Nat
  high : Nat
  bits : Nat
deriving DecidableEq, Repr

/-- What a first byte begins: a whole character, a longer one, or nothing. -/
inductive FirstByte where
  | whole (code : Nat)
  | opens (begun : Begun)
  | stray
deriving DecidableEq, Repr

/-- The second byte's range keeps out overlong forms, halves and codes past the last one. -/
def firstByte (b : Nat) : FirstByte :=
  if b < 0x80 then .whole b
  else if b < 0xC2 then .stray
  else if b < 0xE0 then .opens ⟨1, 0x80, 0xBF, b - 0xC0⟩
  else if b < 0xF0 then
    .opens ⟨2, if b = 0xE0 then 0xA0 else 0x80, if b = 0xED then 0x9F else 0xBF, b - 0xE0⟩
  else if b < 0xF5 then
    .opens ⟨3, if b = 0xF0 then 0x90 else 0x80, if b = 0xF4 then 0x8F else 0xBF, b - 0xF0⟩
  else .stray

/-- The state of decoding: the characters so far, last first, and the one begun. -/
structure Decoder where
  written : List Char := []
  begun : Option Begun := none

def Decoder.start (d : Decoder) (b : Nat) : Decoder :=
  match firstByte b with
  | .whole code => ⟨charOf code :: d.written, none⟩
  | .opens begun => ⟨d.written, some begun⟩
  | .stray => ⟨replacement :: d.written, none⟩

def Decoder.step (d : Decoder) (byte : UInt8) : Decoder :=
  let b := byte.toNat
  match d.begun with
  | none => d.start b
  | some p =>
    if p.low ≤ b ∧ b ≤ p.high then
      let bits := p.bits * 0x40 + (b - 0x80)
      if p.missing = 1 then ⟨charOf bits :: d.written, none⟩
      else ⟨d.written, some ⟨p.missing - 1, 0x80, 0xBF, bits⟩⟩
    else Decoder.start ⟨replacement :: d.written, none⟩ b

/-- A character still open at the end of the bytes reads as one replacement character. -/
def Decoder.finish (d : Decoder) : List Char :=
  match d.begun with
  | none => d.written.reverse
  | some _ => (replacement :: d.written).reverse

/-- The characters of a byte sequence, a leading byte-order mark kept. -/
def decodeChars (bytes : Bytes) : List Char := (bytes.foldl Decoder.step {}).finish

def byteOrderMark : Char := Char.ofNat 0xFEFF

/-- Drops one leading byte-order mark. -/
def dropMark : List Char → List Char
  | c :: cs => if c = byteOrderMark then cs else c :: cs
  | [] => []

def decode (bytes : Bytes) : String := String.ofList (dropMark (decodeChars bytes))

end DeviceReports.Text
