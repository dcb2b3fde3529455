/-!
# Text in 16-bit units

Columns are measured in 16-bit units: a character outside the basic plane takes two, a high
and a low half, and a cut may leave one half alone. A text is therefore a list of units, and
a half that stands alone reads as the replacement character.
-/

set_option autoImplicit false

namespace DeviceReports

abbrev Text := List UInt16

namespace Text

def isHighHalf (u : UInt16) : Bool := 0xD800 ≤ u && u < 0xDC00

/-- A code point that is the low half of a pair. -/
def isLowHalf (code : Nat) : Bool := 0xDC00 ≤ code && code < 0xE000

/-- The units of one character. -/
def ofChar (c : Char) : Text :=
  if c.toNat < 0x10000 then [UInt16.ofNat c.toNat]
  else
    let rest := c.toNat - 0x10000
    [UInt16.ofNat (0xD800 + rest / 0x400), UInt16.ofNat (0xDC00 + rest % 0x400)]

def ofChars (cs : List Char) : Text := cs.flatMap ofChar

def ofString (s : String) : Text := ofChars s.toList

/-- The code point of a high half followed by a low half. -/
def pairCode (high low : UInt16) : Nat :=
  0x10000 + (high.toNat - 0xD800) * 0x400 + (low.toNat - 0xDC00)

/-- Puts a unit before the code points that follow it. A low half in front of them is still
alone, so a high half takes it up. -/
def prependUnit (u : UInt16) (rest : List Nat) : List Nat :=
  match rest with
  | [] => [u.toNat]
  | next :: others =>
    if isHighHalf u && isLowHalf next then
      pairCode u (UInt16.ofNat next) :: others
    else u.toNat :: next :: others

/-- The code points of a text, halves that stand alone included. -/
def codePoints (t : Text) : List Nat := t.foldr prependUnit []

def replacement : Char := Char.ofNat 0xFFFD

/-- The character of a code point, the replacement character for a half. -/
def charOf (code : Nat) : Char :=
  if code.isValidChar then Char.ofNat code else replacement

/-- The characters of a text, a half that stands alone read as the replacement character. -/
def chars (t : Text) : List Char := (codePoints t).map charOf

def toString (t : Text) : String := String.ofList (chars t)

/-- Fills a text on its left up to `width` units. -/
def padStart (t : Text) (width : Nat) (fill : UInt16) : Text :=
  List.replicate (width - t.length) fill ++ t

/-- Fills a text on its right up to `width` units. -/
def padEnd (t : Text) (width : Nat) (fill : UInt16) : Text :=
  t ++ List.replicate (width - t.length) fill

/-- The order of two texts by their units. -/
def before (a b : Text) : Bool :=
  match a, b with
  | [], [] => false
  | [], _ :: _ => true
  | _ :: _, [] => false
  | x :: xs, y :: ys => if x = y then before xs ys else decide (x < y)

end Text

end DeviceReports
