import DeviceReports.Device.Description

/-!
# Sample devices

Two descriptions to try reports on: a device that has nothing but its identity, and one with
entries in every collection. Overrides take the place of whole top-level fields.
-/

set_option autoImplicit false

namespace DeviceReports.Sample

def figures (fields : List (String × Int)) : List (String × Value) :=
  fields.map fun f => (f.1, .number (.ofInt f.2))

def numbers (ns : List Nat) : Value := .list (ns.map fun n => .number (.ofNat n))

def identity : List (String × Value) :=
  figures [("index", 0)] ++ [("driverName", .string "gfx"), ("busId", .string "pci:0000:01:00.0")]

def mapEntry (offset size kind flags : Nat) (mtrr : Int) (userToken : Nat) : Value :=
  .record (("map", .record (figures [("offset", offset), ("size", size), ("type", kind),
    ("flags", flags), ("mtrr", mtrr)])) :: figures [("userToken", userToken)])

def maps : Value :=
  .list [mapEntry 0xe0000000 0x1000000 0 0 1 0x10000000, .record (figures [("userToken", 0)]),
    mapEntry 0xfd000000 0x80000 1 0x22 (-1) 0x10001000]

def queues : Value :=
  .list
    [.record (figures [("flags", 1), ("totalQueued", 12), ("totalFlushed", 10),
      ("totalLocks", 3), ("readWaiters", 1)]),
    .record ([("blockRead", .bool true), ("blockWrite", .bool true)]
      ++ figures [("finalization", 1), ("waitlistCount", 2)])]

def bufferClass (bufSize bufCount freeCount segCount pageOrder : Nat) : Value :=
  .record (figures [("bufSize", bufSize), ("bufCount", bufCount), ("freeCount", freeCount),
    ("segCount", segCount), ("pageOrder", pageOrder)])

def dma : Value :=
  .record [
    ("classes", .record [("0", bufferClass 4096 8 6 8 0), ("4", bufferClass 65536 2 2 2 4)]),
    ("bufferLists", numbers [0, 1, 0, 2])]

def client (authenticated : Bool) (minorIndex pid uid magic ioctlCount : Nat) : Value :=
  .record (("authenticated", .bool authenticated) :: figures [("minorIndex", minorIndex),
    ("pid", pid), ("uid", uid), ("magic", magic), ("ioctlCount", ioctlCount)])

def namedObject (name size handleCount refCount : Nat) : Value :=
  .record (figures [("name", name), ("size", size), ("handleCount", handleCount),
    ("refCount", refCount)])

def objectStats : Value :=
  .record (figures [("objectCount", 2), ("objectMemory", 1052672), ("pinCount", 1),
    ("pinMemory", 4096), ("gttMemory", 8192), ("gttTotal", 268435456)])

def memoryControl : Value :=
  .record (figures [("usedMemory", 20 * 4096), ("usedEmergency", 5),
    ("lowThreshold", 256 * 4096), ("highThreshold", 512 * 4096),
    ("emergencyThreshold", 640 * 4096)])

def memoryTracker : Value :=
  .record (figures [("ramAvailablePages", 1024), ("ramUsedBytes", 8192)]
    ++ [("areas", .list [.record (("name", .string "driver") :: figures [("succeedCount", 10),
      ("freeCount", 4), ("failCount", 0), ("bytesAllocated", 2048), ("bytesFreed", 512)])])])

def areas : Value :=
  .list [.record (figures [("pid", 1200)] ++ [("vma", .record (figures [("start", 0x7f000000),
    ("end", 0x7f001000), ("flags", 0x83), ("pageOffset", 0xe0000), ("pageProtection", 7)]))])]

/-- Entries for every collection. -/
def contents : List (String × Value) :=
  [("unique", .string "pci:0000:01:00.0"), ("maps", maps), ("queues", queues), ("dma", dma),
    ("clients", .list [client true 0 1200 1000 7 42, client false 64 1300 0 0 3]),
    ("objects", .list [namedObject 1 4096 1 2, namedObject 2 1048576 2 3]),
    ("objectStats", objectStats),
    ("fences", .record (("initialized", .bool true) :: figures [("count", 4)])),
    ("bufferObjects",
      .record (("initialized", .bool true) :: figures [("count", 9), ("lockedPages", 16)])),
    ("memoryControl", memoryControl), ("memoryTracker", memoryTracker), ("vmas", areas),
    ("highMemory", .record (figures [("virtual", 0x38000000), ("physical", 0x38000000)]))]

/-- The fields of `base` with those of `overrides` in their place. -/
def overridden (base overrides : List (String × Value)) : Value :=
  .record (Keyed.putAll base overrides)

/-- A device with nothing but its identity, apart from the overrides. -/
def bare (overrides : List (String × Value) := []) : Device :=
  Device.ofValue (overridden identity overrides)

/-- A device with entries in every collection, apart from the overrides. -/
def populated (overrides : List (String × Value) := []) : Device :=
  Device.ofValue (overridden (identity ++ contents) overrides)

end DeviceReports.Sample
