import DeviceReports.Report

/-!
# The accounting report

How many objects are active, how much memory they use, and the thresholds of that memory. The
memory controller is queried once, so all its figures belong together.
-/

set_option autoImplicit false

namespace DeviceReports.Report.Accounting

/-- Usage above this many pages is given in pages. -/
def largePages : Nat := 16

/-- The pages that bytes fill. -/
def pagesOf (s : Settings) (bytes : Number) : String := (bytes / s.pageSize).floor.text

def usage (s : Settings) (what : String) (bytes : Number) : String :=
  if (largePages : Number) * s.pageSize < bytes then
    what ++ " is " ++ pagesOf s bytes ++ " pages.\n"
  else what ++ " is " ++ bytes.text ++ " bytes.\n"

def threshold (s : Settings) (what : String) (bytes : Number) : String :=
  what ++ " memory usage threshold is " ++ pagesOf s bytes ++ " pages.\n"

def fenceLine (m : FenceManager) : Piece :=
  if m.initialized then "Number of active fence objects: " ++ m.count.number.text ++ ".\n"
  else "Fence objects are not supported by this driver\n"

def bufferLines (m : BufferManager) : List Piece :=
  if m.initialized then ["Number of active buffer objects: " ++ m.count.number.text ++ ".\n"]
  else []

def lockedPagesLine (m : BufferManager) : Piece :=
  if m.initialized then "Number of locked GATT pages: " ++ m.curPages.text ++ ".\n"
  else "Buffer objects are not supported by this driver.\n"

def title (what : String) : Piece := what ++ ":\n\n"

/-- How many objects are active. -/
def objectPieces (d : Device) : List Piece :=
  title "Object accounting" :: fenceLine d.fenceManager :: bufferLines d.bufferManager
    ++ [Piece.newLine]

/-- How much memory the objects use. -/
def memoryPieces (s : Settings) (d : Device) (status : MemoryStatus) : List Piece :=
  [title "Memory accounting", lockedPagesLine d.bufferManager,
    usage s "Used object memory" status.usedMemory,
    usage s "Used emergency memory" status.usedEmergency, Piece.newLine]

def thresholdPieces (s : Settings) (status : MemoryStatus) : List Piece :=
  [threshold s "Soft object" status.lowThreshold, threshold s "Hard object" status.highThreshold,
    threshold s "Emergency root only" status.emergencyThreshold, Piece.newLine]

def pieces (s : Settings) (d : Device) (status : MemoryStatus) : List Piece :=
  objectPieces d ++ memoryPieces s d status ++ thresholdPieces s status

/-- Asks the memory controller for its figures. -/
def query : Process Device MemoryStatus := do
  let d ← get
  d.memoryControl.query.focus (fun d => (d.memoryControl.memory, d.toDeviceState))
    fun d (memory, state) => ⟨state, { d.memoryControl with memory }⟩

def report : Report where
  name := "objects"
  requiresLock := true
  generate s := do
    let status ← Rendering.onState query
    let d ← Rendering.state
    Rendering.printEach (pieces s d status)

end DeviceReports.Report.Accounting
