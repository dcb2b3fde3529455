import DeviceReports.Counter
import DeviceReports.Lock

/-!
# Graphics devices

The state of one device, as the reports read it: plain figures, collections, counters and the
state lock. The collections that a report enumerates under the lock are lists in registration
order.
-/

set_option autoImplicit false

namespace DeviceReports

/-- A mapped range; a negative `mtrr` means that the range has no memory-type register. -/
structure Mapping where
  offset : Number
  size : Number
  kind : Number
  flags : Number
  mtrr : Number
deriving DecidableEq, Repr

/-- An entry of the mapping table, which outlives its mapping. -/
structure MapEntry where
  mapping : Option Mapping
  userToken : Number
deriving DecidableEq, Repr

structure JobQueue where
  flags : Number
  useCount : Counter
  finalization : Counter
  blockCount : Counter
  blockRead : Counter
  blockWrite : Counter
  readWaiters : Number
  writeWaiters : Number
  flushWaiters : Number
  waitlistCount : Number
  totalFlushed : Counter
  totalQueued : Counter
  totalLocks : Counter
deriving DecidableEq, Repr, Inhabited

/-- The buffers of one allocation order. -/
structure BufferClass where
  bufSize : Number
  bufCount : Number
  freeCount : Counter
  segCount : Number
  pageOrder : Number
deriving DecidableEq, Repr

/-- The buffer classes by ascending order, one whose order is no number last, and the list index
of each allocated buffer. -/
structure DmaPool where
  classes : List (Number × BufferClass) := []
  buffers : List Number := []
deriving DecidableEq, Repr

structure Client where
  authenticated : Bool
  minorIndex : Number
  pid : Number
  uid : Number
  magic : Number
  ioctlCount : Number
deriving DecidableEq, Repr

/-- An object of the name registry. -/
structure NamedObject where
  name : Number
  size : Number
  handleCount : Counter
  refCount : Counter
deriving DecidableEq, Repr

structure ObjectStats where
  objectCount : Counter
  objectMemory : Counter
  pinCount : Counter
  pinMemory : Counter
  gttMemory : Counter
  gttTotal : Number
deriving DecidableEq, Repr

structure FenceManager where
  initialized : Bool
  count : Counter
deriving DecidableEq, Repr

structure BufferManager where
  initialized : Bool
  count : Counter
  curPages : Number
deriving DecidableEq, Repr

/-- The figures that one query of the memory controller answers. -/
structure MemoryStatus where
  usedMemory : Number
  usedEmergency : Number
  lowThreshold : Number
  highThreshold : Number
  emergencyThreshold : Number
deriving DecidableEq, Repr

structure MemoryArea where
  name : String
  succeedCount : Number
  freeCount : Number
  failCount : Number
  bytesAllocated : Number
  bytesFreed : Number
deriving DecidableEq, Repr

structure MemoryTracker where
  ramAvailablePages : Number
  ramUsedBytes : Number
  areas : List MemoryArea
deriving DecidableEq, Repr

structure VirtualArea where
  start : Number
  stop : Number
  flags : Number
  pageOffset : Number
  pageProtection : Number
deriving DecidableEq, Repr

/-- A process's entry in the list of virtual areas, which outlives its area. -/
structure AreaEntry where
  pid : Number
  area : Option VirtualArea
deriving DecidableEq, Repr

structure HighMemory where
  virtual : Number
  physical : Number
deriving DecidableEq, Repr

/-- The state of a device but for its memory controller. Its identity is kept as it was described:
a number, two texts, or what stood in their place. -/
structure DeviceState where
  index : Value
  driverName : Value
  busId : Value
  unique : Option String
  lock : StateLock
  maps : List MapEntry
  queues : List JobQueue
  dma : Option DmaPool
  clients : List Client
  objects : List NamedObject
  objectStats : ObjectStats
  fenceManager : FenceManager
  bufferManager : BufferManager
  memoryTracker : MemoryTracker
  areas : List AreaEntry
  areaCount : Counter
  highMemory : HighMemory

/-- A memory controller, which the driver brings along. It keeps a memory of its own from query to
query. A query sees the device and may change it, and answers a status, fails, or goes on without
end. -/
structure MemoryControl where
  memory : Nat := 0
  query : Process (Nat × DeviceState) MemoryStatus

/-- A controller that answers every query with one status. -/
def MemoryControl.constant (status : MemoryStatus) : MemoryControl := { query := pure status }

structure Device extends DeviceState where
  memoryControl : MemoryControl

namespace DmaPool

def classAt? (p : DmaPool) (order : Number) : Option BufferClass :=
  (p.classes.find? (·.1 == order)).map (·.2)

/-- Writes the class of an order into an ascending list. -/
def insertClass (order : Number) (c : BufferClass) :
    List (Number × BufferClass) → List (Number × BufferClass)
  | [] => [(order, c)]
  | (n, old) :: rest =>
    if order = n then (order, c) :: rest
    else if order < n ∨ n = .nan then (order, c) :: (n, old) :: rest
    else (n, old) :: insertClass order c rest

def putClass (p : DmaPool) (order : Number) (c : BufferClass) : DmaPool :=
  { p with classes := insertClass order c p.classes }

end DmaPool

namespace Device

/-- The index as it is shown. -/
def label (d : Device) : String := d.index.display

/-- Writes an object under its name: a name met before keeps its place. -/
def putObject (objects : List NamedObject) (o : NamedObject) : List NamedObject :=
  if objects.any (·.name == o.name) then
    objects.map fun old => if old.name == o.name then o else old
  else objects ++ [o]

def lockWord (d : Device) : Int32 := d.lock.word

def putLockWord (d : Device) (word : Int32) : Device :=
  { d with lock := { d.lock with word } }

/-- The highest allocation order that a buffer pool is listed for by default. -/
def highestOrder : Nat := 22

end Device

end DeviceReports
