import DeviceReports.Device.Description
import DeviceReports.Document.Schema

/-!
# Device snapshots

A snapshot is a description that has been checked: figures are non-negative integers, those
kept in counters fit a counter, and keys that the schema does not name have no influence.
-/

set_option autoImplicit false

namespace DeviceReports.Snapshot

open Fields (declare)

def count : Schema := .number [.integer, .atLeast 0]

def counterMessage : String :=
  "must fit a 32-bit counter (at most " ++ toString Counter.maximum ++ ")"

/-- A count that a counter can hold. -/
def counted : Schema := .number [.integer, .atLeast 0, .atMost Counter.maximum counterMessage]

def integer : Schema := .number [.integer]

def mapping : Schema :=
  .record
    (declare .required count ["offset", "size"]
      (declare .required integer ["type"]
        (declare .required count ["flags"]
          (declare (.default (-1)) integer ["mtrr"] .nil))))
    false

def mapEntry : Schema :=
  .record (declare .optional mapping ["map"] (declare (.default 0) count ["userToken"] .nil)) false

def queue : Schema :=
  .record
    (declare .optional count ["flags"]
      (declare .optional counted ["useCount", "finalization", "blockCount"]
        (declare .optional .boolean ["blockRead", "blockWrite"]
          (declare .optional count
            ["readWaiters", "writeWaiters", "flushWaiters", "waitlistCount"]
            (declare .optional counted ["totalFlushed", "totalQueued", "totalLocks"] .nil)))))
    false

def bufferClass : Schema :=
  .record
    (declare .required count ["bufSize", "bufCount"]
      (declare .optional counted ["freeCount"]
        (declare .required count ["segCount"]
          (declare .required (.number [.integer, .atLeast 0, .atMost 31 none]) ["pageOrder"]
            .nil))))
    false

def dma : Schema :=
  .record
    (declare .optional (.digitKeyed "order keys must be integers" bufferClass) ["classes"]
      (declare .optional (.list integer) ["bufferLists"] .nil))
    false

def client : Schema :=
  .record
    (declare .required .boolean ["authenticated"]
      (declare .required count ["minorIndex", "pid", "uid", "magic", "ioctlCount"] .nil))
    false

def namedObject : Schema :=
  .record
    (declare .required count ["name", "size"]
      (declare .optional counted ["handleCount", "refCount"] .nil))
    false

def objectStats : Schema :=
  .record
    (declare .optional counted
      ["objectCount", "objectMemory", "pinCount", "pinMemory", "gttMemory"]
      (declare .optional count ["gttTotal"] .nil))
    false

def fences : Schema :=
  .record
    (declare .required .boolean ["initialized"] (declare .optional counted ["count"] .nil))
    false

def bufferObjects : Schema :=
  .record
    (declare .required .boolean ["initialized"]
      (declare .optional counted ["count"] (declare .optional count ["lockedPages"] .nil)))
    false

def memoryControl : Schema :=
  .record
    (declare .required count
      ["usedMemory", "usedEmergency", "lowThreshold", "highThreshold", "emergencyThreshold"] .nil)
    false

def memoryArea : Schema :=
  .record
    (declare .required (.text true) ["name"]
      (declare .required count
        ["succeedCount", "freeCount", "failCount", "bytesAllocated", "bytesFreed"] .nil))
    false

def memoryTracker : Schema :=
  .record
    (declare .optional count ["ramAvailablePages", "ramUsedBytes"]
      (declare .optional (.list memoryArea) ["areas"] .nil))
    false

def virtualArea : Schema :=
  .record
    (declare .required count ["start", "end", "flags", "pageOffset"]
      (declare (.default 0) count ["pageProtection"] .nil))
    false

def areaEntry : Schema :=
  .record (declare .required count ["pid"] (declare .optional virtualArea ["vma"] .nil)) false

def highMemory : Schema :=
  .record (declare .required count ["virtual", "physical"] .nil) false

/-- The schema of a whole snapshot. -/
def schema : Schema :=
  .record
    (declare .required count ["index"]
      (declare .required (.text true) ["driverName", "busId"]
        (declare .optional (.text false) ["unique"]
          (declare .optional (.list mapEntry) ["maps"]
            (declare .optional (.list queue) ["queues"]
              (declare .optional dma ["dma"]
                (declare .optional (.list client) ["clients"]
                  (declare .optional (.list namedObject) ["objects"]
                    (declare .optional objectStats ["objectStats"]
                      (declare .optional fences ["fences"]
                        (declare .optional bufferObjects ["bufferObjects"]
                          (declare .optional memoryControl ["memoryControl"]
                            (declare .optional memoryTracker ["memoryTracker"]
                              (declare .optional (.list areaEntry) ["vmas"]
                                (declare .optional highMemory ["highMemory"] .nil)))))))))))))))
    false

/-- The source that is named when a snapshot comes from no file. -/
def inlineSource : String := "<inline>"

/-- A finding about the document as a whole is shown at the root. -/
def atRoot (i : Issue) : Issue := if i.field = "" then { i with field := "(root)" } else i

/-- The device of a snapshot document. -/
def load (document : Value) (source : String := inlineSource) : Except Failure Device :=
  match Schema.validate schema document with
  | .ok v => .ok (Device.ofValue v)
  | .error found => .error (.snapshot source (found.map atRoot))

end DeviceReports.Snapshot
