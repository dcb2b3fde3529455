import DeviceReports.Action
import DeviceReports.Counter

/-!
# Shared counters

A bank holds buffers of words and counters attached to them. Several counters may share one
word; a counter without a buffer of its own gets a fresh one. Attaching stores nothing.
-/

set_option autoImplicit false

namespace DeviceReports

/-- A buffer of `bytes` bytes read as 32-bit words. -/
structure WordBuffer where
  bytes : Nat
  words : List Counter

/-- The place a counter stands for: a word of one buffer. -/
structure CounterPlace where
  buffer : Nat
  slot : Number

structure CounterBank where
  buffers : List WordBuffer := []
  places : List CounterPlace := []

inductive CounterStep where
  | new (initial slot : Number) (buffer : Option Nat)
  | increment (counter : Nat)
  | decrement (counter : Nat)
  | value (counter : Nat)
  | set (counter : Nat) (value : Number)

namespace WordBuffer

def zeroed (bytes : Nat) : WordBuffer := ⟨bytes, List.replicate (bytes / 4) ⟨0⟩⟩

def wordBytes : Nat := 4

/-- The word index that a slot number selects. -/
def index? (b : WordBuffer) (slot : Number) : Option Nat :=
  match slot.whole? with
  | some n => if 0 ≤ n ∧ n.toNat < b.words.length then some n.toNat else none
  | none => none

def noSuchWord : Failure := .outOfRange "Invalid atomic access index"

def unevenSize : Failure :=
  .outOfRange "byte length of Int32Array should be a multiple of 4"

/-- A buffer can be read as words only when its size is a whole number of words. -/
def checkSize (bytes : Nat) : Except Failure Unit :=
  if bytes % wordBytes = 0 then .ok () else .error unevenSize

def read (b : WordBuffer) (slot : Number) : Except Failure Counter :=
  match b.index? slot with
  | some i => .ok (b.words.getD i ⟨0⟩)
  | none => .error noSuchWord

def write (b : WordBuffer) (slot : Number) (c : Counter) : Except Failure WordBuffer :=
  match b.index? slot with
  | some i => .ok { b with words := b.words.set i c }
  | none => .error noSuchWord

end WordBuffer

namespace CounterBank

def ofSizes (sizes : List Nat) : CounterBank := { buffers := sizes.map WordBuffer.zeroed }

def noSuchCounter : Failure := .foreign "TypeError" "no such counter"

def place (bank : CounterBank) (counter : Nat) : Except Failure (CounterPlace × WordBuffer) :=
  match bank.places[counter]? with
  | none => .error noSuchCounter
  | some p =>
    match bank.buffers[p.buffer]? with
    | some b => .ok (p, b)
    | none => .error noSuchCounter

def read (bank : CounterBank) (counter : Nat) : Except Failure Counter := do
  let (p, b) ← bank.place counter
  b.read p.slot

def write (bank : CounterBank) (counter : Nat) (c : Counter) : Except Failure CounterBank := do
  let (p, b) ← bank.place counter
  let b ← b.write p.slot c
  pure { bank with buffers := bank.buffers.set p.buffer b }

/-- A new counter over a buffer of the bank, or over a fresh word that starts at `initial`. -/
def add (bank : CounterBank) (initial slot : Number) (buffer : Option Nat) :
    Except Failure CounterBank :=
  match buffer with
  | some i =>
    match bank.buffers[i]? with
    | none => .error noSuchCounter
    | some b => do
      WordBuffer.checkSize b.bytes
      pure { bank with places := bank.places ++ [⟨i, slot⟩] }
  | none => do
    let b ← (WordBuffer.zeroed WordBuffer.wordBytes).write slot (Counter.ofNumber initial)
    pure {
      buffers := bank.buffers ++ [b]
      places := bank.places ++ [⟨bank.buffers.length, slot⟩] }

/-- One step on the bank, with the figure it answers if any. A step that fails changes
nothing. -/
def step (bank : CounterBank) (s : CounterStep) : Except Failure (Option Int × CounterBank) :=
  match s with
  | .new initial slot buffer => do pure (none, ← bank.add initial slot buffer)
  | .increment counter => do
    let (answer, next) := (← bank.read counter).increment
    pure (some answer, ← bank.write counter next)
  | .decrement counter => do
    let (answer, next) := (← bank.read counter).decrement
    pure (some answer, ← bank.write counter next)
  | .value counter => do pure (some (← bank.read counter).value, bank)
  | .set counter value => do pure (none, ← bank.write counter (Counter.ofNumber value))

/-- The value of every counter, where it can be read. -/
def values (bank : CounterBank) : List (Option Int) :=
  (List.range bank.places.length).map fun i => (bank.read i).toOption.map Counter.value

/-- What a step answered, and every counter's value after it. -/
structure Record where
  result : Except Failure (Option Int)
  values : List (Option Int)

def run (bank : CounterBank) : List CounterStep → List Record
  | [] => []
  | s :: rest =>
    match bank.step s with
    | .ok (answer, next) => ⟨.ok answer, next.values⟩ :: run next rest
    | .error e => ⟨.error e, bank.values⟩ :: run bank rest

end CounterBank

end DeviceReports
