import DeviceReports.Number

/-!
# Counters

A counter is one signed 32-bit word. Stores keep the low 32 bits of the integer part, and
counting up or down wraps around; the figure that a counting step answers is the old value
plus or minus one and is not wrapped.
-/

set_option autoImplicit false

namespace DeviceReports

structure Counter where
  word : Int32
deriving DecidableEq, Repr, Inhabited

namespace Counter

/-- The largest value before a counter wraps. -/
def maximum : Nat := 0x7fffffff

def ofNumber (x : Number) : Counter := ⟨x.word32⟩

def value (c : Counter) : Int := c.word.toInt

def number (c : Counter) : Number := Number.ofInt c.value

def increment (c : Counter) : Int × Counter := (c.value + 1, ⟨c.word + 1⟩)

def decrement (c : Counter) : Int × Counter := (c.value - 1, ⟨c.word - 1⟩)

end Counter

end DeviceReports
