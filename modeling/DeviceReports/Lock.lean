import DeviceReports.Action

/-!
# The state lock

A lock is one word, zero when free and one when held. Acquiring tries again until it has the
word, sleeps after every so many tries, and gives up once a ceiling of failed tries is
reached. Nothing else runs meanwhile, so a held word stays held. The lock is not re-entrant. It
sleeps on a second word beside the first, which is never written.

Failed tries are counted in double precision. Such a count stands still at 2^53, and a ceiling
above that is never reached: the acquirer tries for ever.
-/

set_option autoImplicit false

namespace DeviceReports

/-- How long an acquirer tries: the failed tries between two sleeps, and the failed tries
after which it gives up. -/
structure Patience where
  yieldAfterSpins : Number := 100
  panicThreshold : Number := 1000000

structure StateLock where
  word : Int32 := 0
  patience : Patience := {}
deriving Inhabited

namespace Lock

def free : Int32 := 0

def held : Int32 := 1

def isLocked (word : Int32) : Bool := word == held

/-- Takes the word if it is free. -/
def tryAcquire : Process Int32 Bool := .ofOutcome fun word =>
  if word = free then (.ok true, held) else (.ok false, word)

/-- The failed tries of one acquisition, and those of them since the last sleep. -/
structure Tries where
  failed : Number := 0
  sinceSleep : Number := 0

/-- What one more failed try comes to: the acquirer gives up with their number, or it goes on,
after a sleep once it has failed often enough since the last one. -/
def Tries.afterFailure (p : Patience) (t : Tries) : Except Number Tries :=
  let failed := t.failed + 1
  if p.panicThreshold ≤ failed then .error failed
  else
    let sinceSleep := t.sinceSleep + 1
    if p.yieldAfterSpins ≤ sinceSleep then .ok ⟨failed, 0⟩ else .ok ⟨failed, sinceSleep⟩

/-- Tries up to `fuel` times. What that comes to, with the word afterwards, is nothing when none of
the tries was the last. -/
def spin (p : Patience) : Nat → Tries → Int32 → Option (Except Number Unit × Int32)
  | 0, _, _ => none
  | fuel + 1, t, word =>
    if word = free then some (.ok (), held)
    else
      match t.afterFailure p with
      | .error failed => some (.error failed, word)
      | .ok t => spin p fuel t word

/-- Where so many tries do not end an acquisition, no number of them does: their count stands still
by then. -/
def decidingTries : Nat := Number.exactBound

def acquire (p : Patience) : Process Int32 Unit := .ofOutcome fun word =>
  match spin p decidingTries {} word with
  | some (.ok (), word) => (.ok (), word)
  | some (.error failed, word) => (.error (.failed (.deadlock (some failed))), word)
  | none => (.error .endless, word)

def release : Process Int32 Unit := .ofOutcome fun word =>
  if word = held then (.ok (), free)
  else (.error (.failed (.internal "State lock released while not held")), word)

end Lock

/-- Runs `body` with a lock word held and releases the word afterwards in any case. -/
def Process.exclusive {σ α : Type} (view : σ → Int32) (put : σ → Int32 → σ) (p : Patience)
    (body : Process σ α) : Process σ α := do
  (Lock.acquire p).focus view put
  body.always (Lock.release.focus view put)

def StateLock.isLocked (l : StateLock) : Bool := Lock.isLocked l.word

end DeviceReports
