import DeviceReports.Number.Decimal
import DeviceReports.Text.Blank

/-!
# Reading a number from a text

A text denotes a number when, without the blanks around it, it is a signed decimal literal,
`Infinity`, or an unsigned literal of base 16, 8 or 2 behind `0x`, `0o` or `0b`. A blank
text is zero, and any other text is not a number.
-/

set_option autoImplicit false

namespace DeviceReports.Number

/-- The base that a literal's marker letter announces. -/
def markedBase? (c : Char) : Option Nat :=
  if c = 'x' ∨ c = 'X' then some 16
  else if c = 'o' ∨ c = 'O' then some 8
  else if c = 'b' ∨ c = 'B' then some 2
  else none

/-- A literal with a base marker. -/
def marked? : List Char → Option Number
  | '0' :: c :: ds => do
    let base ← markedBase? c
    if ds.isEmpty then none
    else
      let n ← Decimal.natural? base ds
      pure (Number.ofNat n)
  | _ => none

/-- A decimal literal without sign, or the word for infinity. -/
def magnitude? (cs : List Char) : Option Number :=
  if cs = "Infinity".toList then some (.infinite false) else Decimal.unsigned? cs

def signed? : List Char → Option Number
  | '-' :: cs => (magnitude? cs).map Neg.neg
  | '+' :: cs => magnitude? cs
  | cs => magnitude? cs

/-- The number that a whole text denotes. -/
def ofText (s : String) : Number :=
  match Text.trimBlanks s.toList with
  | [] => .finite 0
  | cs => ((marked? cs).orElse fun _ => signed? cs).getD .nan

end DeviceReports.Number
