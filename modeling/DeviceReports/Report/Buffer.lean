import DeviceReports.Action
import DeviceReports.Text.Utf8

/-!
# Report buffers

A buffer collects the bytes of one rendering in a storage. A text that finds no room in the
storage has it replaced by a larger one, doubled as often as it takes but never past the
capacity, which takes over the content; what does not fit the capacity is dropped. A buffer has
overflowed once its content passes the limit or anything was dropped.

A capacity need not be a whole number. The content then ends at its whole part, but the length
reaches the capacity itself once more is asked for than fits. Below one no storage can be
doubled, and a text that is printed under such a capacity is doubled for without end.
-/

set_option autoImplicit false

namespace DeviceReports

open Text (Bytes)

structure ReportBuffer where
  limit : Number
  /-- The most bytes that the buffer takes. -/
  capacity : Number
  /-- The storage; its bytes behind the content are zero. -/
  bytes : Array UInt8
  length : Number := .ofCount 0
  truncated : Bool := false

namespace ReportBuffer

/-! ### Storage -/

/-- The bytes of the first storage. -/
def initialBytes : Nat := 256

/-- The most bytes that a buffer holds: positions stay below `Number.exactBound`. -/
def mostBytes : Nat := Number.exactBound - 1

def badSize (size : Number) : Failure := .outOfRange ("Invalid typed array length: " ++ size.text)

/-- A storage of zero bytes, as many as the whole part of a number. -/
def allocate (size : Number) : Except Failure (Array UInt8) :=
  match size.whole? with
  | some n => if n < 0 then .error (badSize size) else .ok (Array.replicate n.toNat 0)
  | none => .error (badSize size)

def outOfBounds : Failure := .outOfRange "offset is out of bounds"

/-- Writes bytes over those of a storage from the whole part of an offset on. They must not pass its
end. -/
def store (storage : Array UInt8) (offset : Number) (bytes : Bytes) :
    Except Failure (Array UInt8) :=
  match offset.whole? with
  | some n =>
    if n < 0 ∨ storage.size < n.toNat + bytes.length then .error outOfBounds
    else .ok (storage.extract 0 n.toNat ++ bytes.toArray
      ++ storage.extract (n.toNat + bytes.length) storage.size)
  | none => .error outOfBounds

/-- The first of `n`, `2n`, `4n`, … that is not below a size. Zero doubled is zero, so that it stays
below a size for ever. -/
def doubledTo? (size : Rat) (n : Nat) : Option Nat :=
  if size ≤ n then some n
  else if n = 0 then none
  else doubledTo? size (2 * n)
termination_by size.ceil.toNat - n
decreasing_by
  have : ¬ size.ceil ≤ (n : Int) := fun h => by
    have := Rat.ceil_le_iff.mp h
    exact absurd this (by assumption)
  omega

/-- The doubled size that is not below another one. Nothing is below what is not a number, and what
is asked for is never unbounded. -/
def doubled? (size : Number) (n : Nat) : Option Nat :=
  match size with
  | .finite q => doubledTo? q n
  | _ => some n

/-! ### The buffer -/

/-- The bytes that a capacity admits: its whole part, at most `mostBytes`. -/
def capacityOf (capacity : Number) : Nat :=
  match capacity.whole? with
  | some n => min n.toNat mostBytes
  | none => mostBytes

def new (limit : Number) (capacity : Nat) : ReportBuffer :=
  { limit
    capacity := .ofCount capacity
    bytes := Array.replicate (min capacity initialBytes) 0 }

/-- A buffer for bounds given as numbers; a capacity above `mostBytes` counts as that. One whose
whole part is negative is none. -/
def create (limit capacity : Number) : Except Failure ReportBuffer := do
  let bytes ← allocate (capacity.lesser (.ofCount initialBytes))
  pure { limit, capacity := capacity.lesser (.ofCount mostBytes), bytes }

/-- The bytes of the content. -/
def size (b : ReportBuffer) : Nat := b.length.position b.bytes.size

def content (b : ReportBuffer) : Array UInt8 := b.bytes.extract 0 b.size

/-- The bytes set aside. -/
def reserved (b : ReportBuffer) : Nat := b.bytes.size

def overflowed (b : ReportBuffer) : Bool := b.truncated || decide (b.limit < b.length)

/-! ### Printing

Every figure here is a count of bytes, the capacity, or what a count leaves of it. Sums and
differences of these are figures themselves, so that there is nothing to round. -/

/-- What is left of the capacity. -/
def room (b : ReportBuffer) : Number := b.capacity.exactDifference b.length

/-- Provides storage for a size. -/
def reserve (size : Number) : Process ReportBuffer Unit := do
  let b ← get
  if size ≤ .ofCount b.bytes.size then pure ()
  else
    match doubled? size b.bytes.size with
    | none => throw .endless
    | some next => do
      let grown ← Process.ofExcept (allocate ((Number.ofCount next).lesser b.capacity))
      let bytes ← Process.ofExcept (store grown (.ofCount 0) b.content.toList)
      set { b with bytes }

/-- Writes bytes behind the content. -/
def write (bytes : Bytes) : Process ReportBuffer Unit := do
  let b ← get
  let bytes ← Process.ofExcept (store b.bytes b.length bytes)
  set { b with bytes }

/-- Takes note of so many bytes that are to be printed: some are dropped if there is not the
room. -/
def announce (count : Nat) : Process ReportBuffer Unit :=
  modify fun b => { b with truncated := b.truncated || decide (b.room < .ofCount count) }

/-- Appends as many of some bytes as there is room for. -/
def append (encoded : Bytes) : Process ReportBuffer Unit := do
  announce encoded.length
  let b ← get
  let taken := b.room.lesser (.ofCount encoded.length)
  if taken = .ofCount 0 then pure ()
  else do
    reserve (b.length.exactSum taken)
    write (encoded.take (taken.position encoded.length))
    modify fun b => { b with length := b.length.exactSum taken }

def print (t : Text) : Process ReportBuffer Unit := append t.encode

/-! ### Reading -/

/-- The bytes in `[start, stop)`, both positions at most the length. Negative ones count from
the end of the storage. -/
def slice (b : ReportBuffer) (start stop : Number) : Bytes :=
  let place (x : Number) : Nat := (x.lesser b.length).position b.bytes.size
  (b.bytes.extract (place start) (place stop)).toList

def text (b : ReportBuffer) : String := Text.decode b.content.toList

end ReportBuffer

end DeviceReports
