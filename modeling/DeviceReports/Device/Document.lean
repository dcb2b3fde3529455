import DeviceReports.Device
import DeviceReports.Failure.Document

/-!
# Devices as documents

The state of a device as a record: plain figures and counters as numbers, collections as lists
in their own order. What is absent is null.
-/

set_option autoImplicit false

namespace DeviceReports

namespace Value

/-- A value that may be absent. -/
def orNull (v : Option Value) : Value := v.getD .null

def numbers (fields : List (String × Number)) : List (String × Value) :=
  fields.map fun f => (f.1, .number f.2)

def counters (fields : List (String × Counter)) : List (String × Value) :=
  fields.map fun f => (f.1, .number f.2.number)

end Value

open Value (numbers counters orNull)

def Mapping.toValue (m : Mapping) : Value :=
  .record (numbers [("offset", m.offset), ("size", m.size), ("type", m.kind), ("flags", m.flags),
    ("mtrr", m.mtrr)])

def MapEntry.toValue (e : MapEntry) : Value :=
  .record [("map", orNull (e.mapping.map Mapping.toValue)), ("userToken", .number e.userToken)]

/-- The processes that wait at one end of a queue. -/
def waitersValue (n : Number) : Value := .record (numbers [("waiters", n)])

def JobQueue.toValue (q : JobQueue) : Value :=
  .record (numbers [("flags", q.flags), ("waitlistCount", q.waitlistCount)]
    ++ counters [("useCount", q.useCount), ("finalization", q.finalization),
      ("blockCount", q.blockCount), ("blockRead", q.blockRead), ("blockWrite", q.blockWrite),
      ("totalFlushed", q.totalFlushed), ("totalQueued", q.totalQueued),
      ("totalLocks", q.totalLocks)]
    ++ [("readQueue", waitersValue q.readWaiters), ("writeQueue", waitersValue q.writeWaiters),
      ("flushQueue", waitersValue q.flushWaiters)])

def BufferClass.toValue (c : BufferClass) : Value :=
  .record (numbers [("bufSize", c.bufSize), ("bufCount", c.bufCount), ("segCount", c.segCount),
    ("pageOrder", c.pageOrder)] ++ counters [("freeCount", c.freeCount)])

/-- A pool lists each class behind its order. -/
def DmaPool.toValue (p : DmaPool) : Value :=
  .record [("classes", .list (p.classes.map fun c => .list [.number c.1, c.2.toValue])),
    ("buffers", .list (p.buffers.map .number))]

def Client.toValue (c : Client) : Value :=
  .record (("authenticated", .bool c.authenticated) :: numbers [("minorIndex", c.minorIndex),
    ("pid", c.pid), ("uid", c.uid), ("magic", c.magic), ("ioctlCount", c.ioctlCount)])

def NamedObject.toValue (o : NamedObject) : Value :=
  .record (numbers [("name", o.name), ("size", o.size)]
    ++ counters [("handleCount", o.handleCount), ("refCount", o.refCount)])

def ObjectStats.toValue (s : ObjectStats) : Value :=
  .record (counters [("objectCount", s.objectCount), ("objectMemory", s.objectMemory),
    ("pinCount", s.pinCount), ("pinMemory", s.pinMemory), ("gttMemory", s.gttMemory)]
    ++ numbers [("gttTotal", s.gttTotal)])

def FenceManager.toValue (m : FenceManager) : Value :=
  .record (("initialized", .bool m.initialized) :: counters [("count", m.count)])

def BufferManager.toValue (m : BufferManager) : Value :=
  .record (("initialized", .bool m.initialized) :: counters [("count", m.count)]
    ++ numbers [("curPages", m.curPages)])

def MemoryStatus.toValue (s : MemoryStatus) : Value :=
  .record (numbers [("usedMemory", s.usedMemory), ("usedEmergency", s.usedEmergency),
    ("lowThreshold", s.lowThreshold), ("highThreshold", s.highThreshold),
    ("emergencyThreshold", s.emergencyThreshold)])

def MemoryArea.toValue (a : MemoryArea) : Value :=
  .record (("name", .string a.name) :: numbers [("succeedCount", a.succeedCount),
    ("freeCount", a.freeCount), ("failCount", a.failCount),
    ("bytesAllocated", a.bytesAllocated), ("bytesFreed", a.bytesFreed)])

def MemoryTracker.toValue (t : MemoryTracker) : Value :=
  .record (numbers [("ramAvailablePages", t.ramAvailablePages), ("ramUsedBytes", t.ramUsedBytes)]
    ++ [("areas", .list (t.areas.map MemoryArea.toValue))])

def VirtualArea.toValue (a : VirtualArea) : Value :=
  .record (numbers [("start", a.start), ("end", a.stop), ("flags", a.flags),
    ("pageOffset", a.pageOffset), ("pageProtection", a.pageProtection)])

def AreaEntry.toValue (e : AreaEntry) : Value :=
  .record (numbers [("pid", e.pid)] ++ [("vma", orNull (e.area.map VirtualArea.toValue))])

def HighMemory.toValue (m : HighMemory) : Value :=
  .record (numbers [("virtual", m.virtual), ("physical", m.physical)])

/-- A device with the figures of one query of its memory controller. -/
def Device.toValue (d : Device) (status : MemoryStatus) : Value :=
  .record [
    ("index", d.index), ("driverName", d.driverName), ("busId", d.busId),
    ("unique", orNull (d.unique.map .string)), ("locked", .bool d.lock.isLocked),
    ("maps", .list (d.maps.map MapEntry.toValue)),
    ("queues", .list (d.queues.map JobQueue.toValue)),
    ("dma", orNull (d.dma.map DmaPool.toValue)),
    ("clients", .list (d.clients.map Client.toValue)),
    ("objectNames", .list (d.objects.map fun o => .list [.number o.name, o.toValue])),
    ("objectStats", d.objectStats.toValue), ("fenceManager", d.fenceManager.toValue),
    ("bufferManager", d.bufferManager.toValue), ("memoryControl", status.toValue),
    ("memoryTracker", d.memoryTracker.toValue), ("vmas", .list (d.areas.map AreaEntry.toValue)),
    ("vmaCount", .number d.areaCount.number), ("highMemory", d.highMemory.toValue)]

end DeviceReports
