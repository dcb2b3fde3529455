import DeviceReports.Report

/-!
# The job queue report

One row per queue. A queue is pinned by a use while its row is formatted and unpinned after
that in any case, so the printed use count includes the pin and the count afterwards does
not.
-/

set_option autoImplicit false

namespace DeviceReports.Report.Queues

open Column

def header : Piece :=
  "  ctx/flags   use   fin   blk/rw/rwf  wait    flushed     queued      locks\n\n"

def count (c : Counter) (width : Number) : Text := decimal c.number width

/-- Which ends of the queue are blocked. -/
def blocked (q : JobQueue) : Text :=
  flag (q.blockRead.word != 0) "r" ++ flag (q.blockWrite.word != 0) "w"

/-- Which of its wait lists somebody waits on. -/
def waiting (q : JobQueue) : Text :=
  flag (decide (0 < q.readWaiters)) "r" ++ flag (decide (0 < q.writeWaiters)) "w"
    ++ flag (decide (0 < q.flushWaiters)) "f"

def row (index : Nat) (q : JobQueue) : Piece :=
  Piece.joined [decimal index 5, "/0x", hex q.flags 3, " ", count q.useCount 5, " ",
    count q.finalization 5, " ", count q.blockCount 5, "/", blocked q, "/", waiting q, " ",
    decimal q.waitlistCount 5, " ", count q.totalFlushed 10, " ", count q.totalQueued 10, " ",
    count q.totalLocks 10, "\n"]

def pin (q : JobQueue) : JobQueue := { q with useCount := q.useCount.increment.2 }

def unpin (q : JobQueue) : JobQueue := { q with useCount := q.useCount.decrement.2 }

/-- Changes one queue of a device. -/
def onQueue (i : Nat) (change : JobQueue → JobQueue) : Process Device Unit :=
  modify fun d => { d with queues := d.queues.modify i change }

/-- Prints the row of a queue as it stands. -/
def printRow (i : Nat) : Rendering Device Unit := do
  match (← Rendering.state).queues[i]? with
  | some q => Rendering.piece (row i q)
  | none => pure ()

/-- Prints the row of a queue while it is pinned. -/
def pinnedRow (i : Nat) : Rendering Device Unit := do
  Rendering.onState (onQueue i pin)
  (printRow i).always (Rendering.onState (onQueue i unpin))

/-- Prints rows in order, up to the first failure. -/
def printRows : List Nat → Rendering Device Unit
  | [] => pure ()
  | i :: rest => do
    pinnedRow i
    printRows rest

def report : Report where
  name := "queues"
  requiresLock := true
  generate _ := do
    Rendering.piece header
    let d ← Rendering.state
    printRows (List.range d.queues.length)

end DeviceReports.Report.Queues
