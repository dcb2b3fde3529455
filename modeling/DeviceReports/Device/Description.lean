import DeviceReports.Device
import DeviceReports.Number.Reading

/-!
# Devices from descriptions

A description is a document with the device's identity and, for every collection, the entries
it starts with. Absent collections are empty, absent counters start at zero and an absent
reference count at one. A figure that is absent where one is needed is no number.
-/

set_option autoImplicit false

namespace DeviceReports

namespace Value

/-- A needed figure. -/
def figure (v : Value) (key : String) : Number := (v.field key).numberD .nan

/-- A figure that may be absent. -/
def figureD (v : Value) (key : String) (default : Number) : Number :=
  (v.field key).numberD default

/-- A counter that starts at a figure. -/
def counterD (v : Value) (key : String) (default : Number) : Counter :=
  Counter.ofNumber (v.figureD key default)

/-- A counter that stands for a yes or no. -/
def switch (v : Value) (key : String) : Counter :=
  Counter.ofNumber (if (v.field key).boolD false then 1 else 0)

end Value

def Patience.ofValue (v : Value) : Patience where
  yieldAfterSpins := v.figureD "yieldAfterSpins" ({} : Patience).yieldAfterSpins
  panicThreshold := v.figureD "panicThreshold" ({} : Patience).panicThreshold

def Mapping.ofValue (v : Value) : Mapping where
  offset := v.figure "offset"
  size := v.figure "size"
  kind := v.figure "type"
  flags := v.figure "flags"
  mtrr := v.figure "mtrr"

def MapEntry.ofValue (v : Value) : MapEntry where
  mapping := (v.field "map").present?.map Mapping.ofValue
  userToken := v.figure "userToken"

def JobQueue.ofValue (v : Value) : JobQueue where
  flags := v.figureD "flags" 0
  useCount := v.counterD "useCount" 0
  finalization := v.counterD "finalization" 0
  blockCount := v.counterD "blockCount" 0
  blockRead := v.switch "blockRead"
  blockWrite := v.switch "blockWrite"
  readWaiters := v.figureD "readWaiters" 0
  writeWaiters := v.figureD "writeWaiters" 0
  flushWaiters := v.figureD "flushWaiters" 0
  waitlistCount := v.figureD "waitlistCount" 0
  totalFlushed := v.counterD "totalFlushed" 0
  totalQueued := v.counterD "totalQueued" 0
  totalLocks := v.counterD "totalLocks" 0

def BufferClass.ofValue (v : Value) : BufferClass where
  bufSize := v.figure "bufSize"
  bufCount := v.figure "bufCount"
  freeCount := v.counterD "freeCount" 0
  segCount := v.figure "segCount"
  pageOrder := v.figure "pageOrder"

/-- Writes the classes in key order, later ones over earlier ones of the same order. -/
def DmaPool.ofValue (v : Value) : DmaPool :=
  let entries := (v.field "classes").fields?.getD []
  let pool : DmaPool := { buffers := (v.field "bufferLists").items.map (·.numberD .nan) }
  entries.foldl (fun p e => p.putClass (Number.ofText e.1) (BufferClass.ofValue e.2)) pool

def Client.ofValue (v : Value) : Client where
  authenticated := (v.field "authenticated").boolD false
  minorIndex := v.figure "minorIndex"
  pid := v.figure "pid"
  uid := v.figure "uid"
  magic := v.figure "magic"
  ioctlCount := v.figure "ioctlCount"

def NamedObject.ofValue (v : Value) : NamedObject where
  name := v.figure "name"
  size := v.figure "size"
  handleCount := v.counterD "handleCount" 0
  refCount := v.counterD "refCount" 1

def ObjectStats.ofValue (v : Value) : ObjectStats where
  objectCount := v.counterD "objectCount" 0
  objectMemory := v.counterD "objectMemory" 0
  pinCount := v.counterD "pinCount" 0
  pinMemory := v.counterD "pinMemory" 0
  gttMemory := v.counterD "gttMemory" 0
  gttTotal := v.figureD "gttTotal" 0

def FenceManager.ofValue (v : Value) : FenceManager where
  initialized := (v.field "initialized").boolD false
  count := v.counterD "count" 0

def BufferManager.ofValue (v : Value) : BufferManager where
  initialized := (v.field "initialized").boolD false
  count := v.counterD "count" 0
  curPages := v.figureD "lockedPages" 0

def MemoryStatus.ofValue (v : Value) : MemoryStatus where
  usedMemory := v.figure "usedMemory"
  usedEmergency := v.figure "usedEmergency"
  lowThreshold := v.figure "lowThreshold"
  highThreshold := v.figure "highThreshold"
  emergencyThreshold := v.figure "emergencyThreshold"

def MemoryStatus.zero : MemoryStatus := ⟨0, 0, 0, 0, 0⟩

/-- A controller that answers with some statuses in turn, and with the last one for good. It
remembers how many queries there were. -/
def MemoryControl.inTurn (statuses : List MemoryStatus) : MemoryControl where
  query := do
    let (count, state) ← get
    set (count + 1, state)
    pure (statuses.getD (min count (statuses.length - 1)) (.ofValue .missing))

/-- A controller described by the statuses of its queries, or by one status for all. -/
def MemoryControl.ofValue (v : Value) : MemoryControl :=
  match v.present? with
  | none => .constant .zero
  | some v =>
    if v.hasKey "query" then .inTurn ((v.field "query").items.map MemoryStatus.ofValue)
    else .constant (.ofValue v)

def MemoryArea.ofValue (v : Value) : MemoryArea where
  name := (v.field "name").stringD ""
  succeedCount := v.figure "succeedCount"
  freeCount := v.figure "freeCount"
  failCount := v.figure "failCount"
  bytesAllocated := v.figure "bytesAllocated"
  bytesFreed := v.figure "bytesFreed"

def MemoryTracker.ofValue (v : Value) : MemoryTracker where
  ramAvailablePages := v.figureD "ramAvailablePages" 0
  ramUsedBytes := v.figureD "ramUsedBytes" 0
  areas := (v.field "areas").items.map MemoryArea.ofValue

def VirtualArea.ofValue (v : Value) : VirtualArea where
  start := v.figure "start"
  stop := v.figure "end"
  flags := v.figure "flags"
  pageOffset := v.figure "pageOffset"
  pageProtection := v.figure "pageProtection"

def AreaEntry.ofValue (v : Value) : AreaEntry where
  pid := v.figure "pid"
  area := (v.field "vma").present?.map VirtualArea.ofValue

def HighMemory.ofValue (v : Value) : HighMemory :=
  match v.present? with
  | none => ⟨0, 0⟩
  | some v => ⟨v.figure "virtual", v.figure "physical"⟩

/-- The device that a description stands for. -/
def Device.ofValue (v : Value) : Device :=
  let areas := (v.field "vmas").items.map AreaEntry.ofValue
  { index := v.field "index"
    driverName := v.field "driverName"
    busId := v.field "busId"
    unique := (v.field "unique").string?
    lock := { patience := Patience.ofValue (v.field "lock") }
    maps := (v.field "maps").items.map MapEntry.ofValue
    queues := (v.field "queues").items.map JobQueue.ofValue
    dma := (v.field "dma").present?.map DmaPool.ofValue
    clients := (v.field "clients").items.map Client.ofValue
    objects := (v.field "objects").items.foldl
      (fun acc o => Device.putObject acc (NamedObject.ofValue o)) []
    objectStats := ObjectStats.ofValue (v.field "objectStats")
    fenceManager := FenceManager.ofValue (v.field "fences")
    bufferManager := BufferManager.ofValue (v.field "bufferObjects")
    memoryControl := MemoryControl.ofValue (v.field "memoryControl")
    memoryTracker := MemoryTracker.ofValue (v.field "memoryTracker")
    areas
    areaCount := Counter.ofNumber areas.length
    highMemory := HighMemory.ofValue (v.field "highMemory") }

end DeviceReports
