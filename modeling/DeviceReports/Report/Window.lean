import DeviceReports.Action
import DeviceReports.Report.Buffer
import DeviceReports.Report.Piece

/-!
# Reading a report in windows

A read renders the whole report into a fresh buffer and answers one window of it. Nothing is
kept between reads, so windows of one report may stem from different states. Draining reads
window after window until one says that the report has ended.
-/

set_option autoImplicit false

namespace DeviceReports

open Text (Bytes)

/-- A window of a report; `eof` when no bytes remain past it. -/
structure Chunk where
  bytes : Bytes
  eof : Bool
deriving DecidableEq, Repr

/-- The empty window at the end of a report. -/
def Chunk.ending : Chunk := ⟨[], true⟩

/-- The limits of one rendering: reads past `sizeLimit` end at once, and the buffer holds
`bufferCapacity` bytes. -/
structure Bounds where
  sizeLimit : Number
  bufferCapacity : Number

/-- The window `[offset, offset + length)` of what was rendered. With more content behind it
it is exactly `length` bytes; otherwise it is the tail and the end. -/
def ReportBuffer.window (out : ReportBuffer) (offset length : Number) : Chunk :=
  if offset + length < out.length then ⟨out.slice offset (offset + length), false⟩
  else if out.length ≤ offset then .ending
  else ⟨out.slice offset out.length, true⟩

/-- A rendering acts on a state and on the buffer it prints into. -/
abbrev Rendering (σ α : Type) := Process (σ × ReportBuffer) α

namespace Rendering

variable {σ : Type}

def print (t : Text) : Rendering σ Unit :=
  (ReportBuffer.print t).focus Prod.snd fun (s, _) out => (s, out)

def output : Rendering σ ReportBuffer := do pure (← get).2

def state : Rendering σ σ := do pure (← get).1

/-- Runs a process on the state alone. -/
def onState {α : Type} (act : Process σ α) : Rendering σ α :=
  act.focus Prod.fst fun (_, out) s => (s, out)

/-- Prints a piece, or fails as its formatting did. -/
def piece (p : Piece) : Rendering σ Unit := do print (← Process.ofExcept p)

/-- Prints pieces in order, up to the first failure. -/
def printEach : List Piece → Rendering σ Unit
  | [] => pure ()
  | p :: rest => do
    piece p
    printEach rest

/-- Renders into a given buffer; what was printed stays even when the rendering fails. -/
def into (render : Rendering σ Unit) (out : ReportBuffer) (s : σ) :
    Except Stop Unit × σ × ReportBuffer := render.outcome (s, out)

/-- Renders into a fresh buffer. -/
def fresh (b : Bounds) (render : Rendering σ Unit) : Process σ ReportBuffer := do
  let out ← Process.ofExcept (ReportBuffer.create b.sizeLimit b.bufferCapacity)
  Effect.ofOutcome fun s =>
    match render.into out s with
    | (.ok (), s, out) => (.ok out, s)
    | (.error e, s, _) => (.error e, s)

end Rendering

/-- Something to read from: windows by offset and length, and a span past which no window may
say that more follows. -/
structure Reader (σ : Type) where
  read : Number → Number → Process σ Chunk
  span : Nat

namespace Reader

variable {σ τ : Type}

/-- Reads from `offset` on in steps of `size`, at most `fuel` times. -/
def drainFrom (r : Reader σ) (size : Nat) : Nat → Nat → Process σ Bytes
  | 0, _ => pure []
  | fuel + 1, offset => do
    let chunk ← r.read (.ofCount offset) (.ofCount size)
    if chunk.eof then pure chunk.bytes
    else
      let rest ← drainFrom r size fuel (offset + chunk.bytes.length)
      pure (chunk.bytes ++ rest)

/-- Reads in steps of `chunkSize` until the end and joins the windows. Every window before the
last is full, so the span bounds the number of reads. -/
def drain (r : Reader σ) (chunkSize : Number) : Process σ Bytes :=
  match chunkSize.count? with
  | some (c + 1) => r.drainFrom (c + 1) (r.span / (c + 1) + 2) 0
  | _ => Process.fail (.readRange (some 0) (some chunkSize))

/-- The same reader as part of a larger state. -/
def within (r : Reader σ) (view : τ → σ) (put : τ → σ → τ) : Reader τ where
  read offset length := (r.read offset length).focus view put
  span := r.span

/-- The step in which a reader is drained when none is given. -/
def defaultChunk : Nat := 1024

end Reader

namespace Reading

variable {σ : Type}

/-- A range is given by two non-negative safe integers. -/
def checkRange (offset length : Number) : Except Failure Unit :=
  if offset.count?.isSome ∧ length.count?.isSome then .ok ()
  else .error (.readRange (some offset) (some length))

/-- One read. Offsets past the size limit end the report without rendering it. -/
def read (b : Bounds) (render : Rendering σ Unit) (offset length : Number) : Process σ Chunk := do
  Process.ofExcept (checkRange offset length)
  if b.sizeLimit < offset then pure .ending
  else
    let out ← Rendering.fresh b render
    pure (out.window offset length)

/-- A rendering as something to read from; its content never passes the capacity. -/
def reader (b : Bounds) (render : Rendering σ Unit) : Reader σ where
  read := read b render
  span := ReportBuffer.capacityOf b.bufferCapacity

end Reading

end DeviceReports
