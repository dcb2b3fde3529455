import DeviceReports.Lock
import DeviceReports.Counter.Bank

/-!
# Locks that share words

A bench holds lock words and locks attached to them; locks on the same word see each other.
Programs of lock steps may nest: the steps of an exclusive run are answered one by one, and
their failures do not end it.
-/

set_option autoImplicit false

namespace DeviceReports

/-- A lock attached to a word, with a patience of its own. -/
structure AttachedLock where
  word : Nat
  patience : Patience

structure LockBench where
  words : List Int32 := []
  locks : List AttachedLock := []

inductive LockStep where
  | new (patience : Patience)
  | attach (lock : Nat) (patience : Patience)
  | attachFresh (bytes : Nat) (patience : Patience)
  | acquire (lock : Nat)
  | tryAcquire (lock : Nat)
  | release (lock : Nat)
  | isLocked (lock : Nat)
  | runExclusive (lock : Nat) (steps : List LockStep) (raises : Option String)

mutual

/-- What a lock step answers. -/
inductive LockAnswer where
  | done
  | flag (b : Bool)
  | steps (records : List LockRecord)

/-- A step's answer or failure, and every lock's state after it. -/
inductive LockRecord where
  | mk (result : Except Failure LockAnswer) (locked : List Bool)

end

namespace LockBench

/-- The least size of a buffer that holds a lock. -/
def bufferBytes : Nat := 8

def noSuchLock : Failure := .foreign "TypeError" "no such lock"

def wordAt (b : LockBench) (i : Nat) : Int32 := b.words.getD i Lock.free

def putWord (i : Nat) (b : LockBench) (word : Int32) : LockBench :=
  { b with words := b.words.set i word }

def locked (b : LockBench) : List Bool := b.locks.map fun l => Lock.isLocked (b.wordAt l.word)

def attached (i : Nat) : Process LockBench AttachedLock := do
  match (← get).locks[i]? with
  | some l => pure l
  | none => Process.fail noSuchLock

/-- Runs a process on the word of a lock. -/
def onWord {α : Type} (l : AttachedLock) (act : Process Int32 α) : Process LockBench α :=
  act.focus (wordAt · l.word) (putWord l.word)

def addOver (word : Nat) (p : Patience) : Process LockBench Unit :=
  modify fun b => { b with locks := b.locks ++ [⟨word, p⟩] }

def addWord : Process LockBench Nat := do
  let n := (← get).words.length
  modify fun b => { b with words := b.words ++ [Lock.free] }
  pure n

def addFresh (bytes : Nat) (p : Patience) : Process LockBench Unit := do
  if bytes < bufferBytes then
    Process.fail (.internal ("State lock buffer must be at least " ++ toString bufferBytes
      ++ " bytes, got " ++ toString bytes))
  Process.ofExcept (WordBuffer.checkSize bytes)
  addOver (← addWord) p

mutual

def step : LockStep → Process LockBench LockAnswer
  | .new p => do
    addOver (← addWord) p
    pure .done
  | .attach i p => do
    addOver (← attached i).word p
    pure .done
  | .attachFresh bytes p => do
    addFresh bytes p
    pure .done
  | .acquire i => do
    let l ← attached i
    onWord l (Lock.acquire l.patience)
    pure .done
  | .tryAcquire i => do
    let l ← attached i
    pure (.flag (← onWord l Lock.tryAcquire))
  | .release i => do
    let l ← attached i
    onWord l Lock.release
    pure .done
  | .isLocked i => do
    let l ← attached i
    pure (.flag (Lock.isLocked ((← get).wordAt l.word)))
  | .runExclusive i body raises => do
    let l ← attached i
    Process.exclusive (wordAt · l.word) (putWord l.word) l.patience do
      let records ← steps body
      match raises with
      | some message => Process.fail (.plain message)
      | none => pure (.steps records)

/-- Runs steps in order; each one's failure is its own answer. -/
def steps : List LockStep → Process LockBench (List LockRecord)
  | [] => pure []
  | s :: rest => do
    let result ← (step s).attempt
    let seen := (← get).locked
    let others ← steps rest
    pure (.mk result seen :: others)

end

/-- The records of a program that is run on an empty bench. A program with an acquisition that goes
on without end has none. -/
def run (program : List LockStep) : Except Stop (List LockRecord) :=
  ((steps program).outcome {}).1

end LockBench

end DeviceReports
