import DeviceReports.Failure
import DeviceReports.Number.Hexadecimal
import DeviceReports.Text.Units

/-!
# Columns

The fields of a report row. Decimal and base-16 columns are filled on the left and never cut;
text columns are cut to their width first. Widths count 16-bit units.
-/

set_option autoImplicit false

namespace DeviceReports.Column

def space : UInt16 := 32

def zero : UInt16 := 48

def label (s : String) : Text := Text.ofString s

/-- The number of units a width asks for: its integer part, at least zero. -/
def unitsOf (width : Number) : Nat :=
  match width.whole? with
  | some n => n.toNat
  | none => if width.isNegative then 0 else Number.exactBound

/-- The first units of a text; a negative width leaves out that many at the end. -/
def cut (t : Text) (width : Number) : Text := t.take (width.position t.length)

/-- The integer part in decimal, right-aligned. -/
def decimal (value width : Number) : Text :=
  (Text.ofString value.trunc.text).padStart (unitsOf width) space

/-- Negative infinity leaves no 64-bit word. -/
def noWord : Failure := .outOfRange
  "The number -Infinity cannot be converted to a BigInt because it is not an integer"

/-- The integer part in base 16, filled with zeros to `digits`. -/
def hex (value digits : Number) : Except Failure Text :=
  match value.hexText? with
  | some s => .ok ((Text.ofString s).padStart (unitsOf digits) zero)
  | none => .error noWord

/-- Cut to `width` units and right-aligned. -/
def right (t : Text) (width : Number) : Text := (cut t width).padStart (unitsOf width) space

/-- Cut to `width` units and left-aligned. -/
def left (t : Text) (width : Number) : Text := (cut t width).padEnd (unitsOf width) space

/-- A letter that shows whether something is set. -/
def flag (isSet : Bool) (on : String) (off : String := "-") : Text :=
  label (if isSet then on else off)

end DeviceReports.Column
