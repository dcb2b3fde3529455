import DeviceReports.Report.Window

/-!
# Sessions

A session renders a report once and answers every window from those bytes, so all its windows
belong to one state of the device. A closed session has ended at every offset.
-/

set_option autoImplicit false

namespace DeviceReports

open Text (Bytes)

structure Session where
  name : String
  sizeLimit : Number
  out : Option ReportBuffer

namespace Session

def ofBuffer (name : String) (out : ReportBuffer) : Session := ⟨name, out.limit, some out⟩

def closed (s : Session) : Bool := s.out.isNone

/-- The length of what was rendered, zero once the session is closed. -/
def length (s : Session) : Number :=
  match s.out with
  | some out => out.length
  | none => 0

/-- The bytes that the session holds. -/
def size (s : Session) : Nat :=
  match s.out with
  | some out => out.size
  | none => 0

/-- A window of the session. A bad range is refused even when the session is closed. -/
def read (s : Session) (offset length : Number) : Except Failure Chunk := do
  Reading.checkRange offset length
  match s.out with
  | none => pure .ending
  | some out => if s.sizeLimit < offset then pure .ending else pure (out.window offset length)

def reader (s : Session) : Reader Unit where
  read offset length := Process.ofExcept (s.read offset length)
  span := s.size

/-- All that the session holds up to its end. -/
def readAll (s : Session) (chunkSize : Number) : Except Stop Bytes :=
  ((s.reader.drain chunkSize).outcome ()).1

def close (s : Session) : Session := { s with out := none }

end Session

end DeviceReports
