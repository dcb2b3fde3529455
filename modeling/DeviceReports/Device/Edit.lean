import DeviceReports.Device.Description

/-!
# Edits

A device changes while its reports are mounted. An edit names a place of the device by a path
of keys and positions, and assigns a figure, adds to or removes from a collection, or counts.
A path that leads nowhere changes nothing.
-/

set_option autoImplicit false

namespace DeviceReports

/-- A part of a structure that can be read and put back. -/
structure Part (σ τ : Type) where
  get : σ → τ
  put : σ → τ → σ

def Part.change {σ τ : Type} (p : Part σ τ) (f : τ → τ) (s : σ) : σ := p.put s (f (p.get s))

namespace JobQueue

def counters : List (String × Part JobQueue Counter) :=
  [("useCount", ⟨useCount, fun q c => { q with useCount := c }⟩),
    ("finalization", ⟨finalization, fun q c => { q with finalization := c }⟩),
    ("blockCount", ⟨blockCount, fun q c => { q with blockCount := c }⟩),
    ("blockRead", ⟨blockRead, fun q c => { q with blockRead := c }⟩),
    ("blockWrite", ⟨blockWrite, fun q c => { q with blockWrite := c }⟩),
    ("totalFlushed", ⟨totalFlushed, fun q c => { q with totalFlushed := c }⟩),
    ("totalQueued", ⟨totalQueued, fun q c => { q with totalQueued := c }⟩),
    ("totalLocks", ⟨totalLocks, fun q c => { q with totalLocks := c }⟩)]

/-- The plain figures by their path below the queue. -/
def figures : List (List String × Part JobQueue Number) :=
  [(["flags"], ⟨flags, fun q n => { q with flags := n }⟩),
    (["waitlistCount"], ⟨waitlistCount, fun q n => { q with waitlistCount := n }⟩),
    (["readQueue", "waiters"], ⟨readWaiters, fun q n => { q with readWaiters := n }⟩),
    (["writeQueue", "waiters"], ⟨writeWaiters, fun q n => { q with writeWaiters := n }⟩),
    (["flushQueue", "waiters"], ⟨flushWaiters, fun q n => { q with flushWaiters := n }⟩)]

end JobQueue

def ObjectStats.counters : List (String × Part ObjectStats Counter) :=
  [("objectCount", ⟨objectCount, fun s c => { s with objectCount := c }⟩),
    ("objectMemory", ⟨objectMemory, fun s c => { s with objectMemory := c }⟩),
    ("pinCount", ⟨pinCount, fun s c => { s with pinCount := c }⟩),
    ("pinMemory", ⟨pinMemory, fun s c => { s with pinMemory := c }⟩),
    ("gttMemory", ⟨gttMemory, fun s c => { s with gttMemory := c }⟩)]

/-- A path: keys, and positions in decimal. -/
abbrev DevicePath := List String

def DevicePath.position (key : String) : Nat := (Keyed.position? key).getD 0

namespace Device

open DevicePath (position)

/-- The plain figures that stand outside collections. -/
def figures : List (DevicePath × Part Device Number) :=
  [(["objectStats", "gttTotal"],
      ⟨fun d => d.objectStats.gttTotal,
        fun d n => { d with objectStats := { d.objectStats with gttTotal := n } }⟩),
    (["bufferManager", "curPages"],
      ⟨fun d => d.bufferManager.curPages,
        fun d n => { d with bufferManager := { d.bufferManager with curPages := n } }⟩),
    (["memoryTracker", "ramUsedBytes"],
      ⟨fun d => d.memoryTracker.ramUsedBytes,
        fun d n => { d with memoryTracker := { d.memoryTracker with ramUsedBytes := n } }⟩),
    (["memoryTracker", "ramAvailablePages"],
      ⟨fun d => d.memoryTracker.ramAvailablePages,
        fun d n => { d with memoryTracker := { d.memoryTracker with ramAvailablePages := n } }⟩)]

def changeQueue (d : Device) (key : String) (f : JobQueue → JobQueue) : Device :=
  { d with queues := d.queues.modify (position key) f }

def changePool (d : Device) (f : DmaPool → DmaPool) : Device := { d with dma := d.dma.map f }

def assignFigure (d : Device) (path : DevicePath) (n : Number) : Device :=
  match path with
  | "queues" :: key :: rest =>
    match JobQueue.figures.lookup rest with
    | some part => d.changeQueue key fun q => part.put q n
    | none => d
  | ["clients", key, "ioctlCount"] =>
    { d with clients := d.clients.modify (position key) fun c => { c with ioctlCount := n } }
  | ["dma", "buffers", key, "list"] =>
    d.changePool fun p => { p with buffers := p.buffers.modify (position key) fun _ => n }
  | path =>
    match figures.lookup path with
    | some part => part.put d n
    | none => d

/-- Assigns the place at a path. -/
def assign (d : Device) (path : DevicePath) (v : Value) : Device :=
  match path with
  | ["unique"] => { d with unique := v.string? }
  | ["maps", key, "map"] =>
    let mapping := v.present?.map Mapping.ofValue
    { d with maps := d.maps.modify (position key) fun e => { e with mapping } }
  | ["fenceManager", "initialized"] =>
    { d with fenceManager := { d.fenceManager with initialized := v.boolD false } }
  | ["bufferManager", "initialized"] =>
    { d with bufferManager := { d.bufferManager with initialized := v.boolD false } }
  | path => d.assignFigure path (v.numberD .nan)

def addQueue (d : Device) (q : JobQueue) : Device := { d with queues := d.queues ++ [q] }

/-- Adds what a document describes to the collection at a path. -/
def append (d : Device) (path : DevicePath) (v : Value) : Device :=
  match path with
  | ["maps"] => { d with maps := d.maps ++ [MapEntry.ofValue v] }
  | ["clients"] => { d with clients := d.clients ++ [Client.ofValue v] }
  | ["vmas"] => { d with areas := d.areas ++ [AreaEntry.ofValue v] }
  | ["dma", "buffers"] =>
    d.changePool fun p => { p with buffers := p.buffers ++ [v.figure "list"] }
  | ["memoryTracker", "areas"] =>
    let areas := d.memoryTracker.areas ++ [MemoryArea.ofValue v]
    { d with memoryTracker := { d.memoryTracker with areas } }
  | _ => d

/-- The size of the collection at a path. -/
def sizeAt (d : Device) (path : DevicePath) : Nat :=
  match path with
  | ["maps"] => d.maps.length
  | ["clients"] => d.clients.length
  | ["queues"] => d.queues.length
  | ["vmas"] => d.areas.length
  | ["dma", "buffers"] =>
    match d.dma with
    | some p => p.buffers.length
    | none => 0
  | ["memoryTracker", "areas"] => d.memoryTracker.areas.length
  | _ => 0

/-- A list without one of its elements; a position past its end removes none. -/
def without {α : Type} (items : List α) (i : Number) : List α :=
  items.eraseIdx (i.position items.length)

/-- Removes one element of the collection at a path. -/
def removeAt (d : Device) (path : DevicePath) (i : Number) : Device :=
  match path with
  | ["maps"] => { d with maps := without d.maps i }
  | ["clients"] => { d with clients := without d.clients i }
  | ["queues"] => { d with queues := without d.queues i }
  | ["vmas"] => { d with areas := without d.areas i }
  | ["dma", "buffers"] => d.changePool fun p => { p with buffers := without p.buffers i }
  | ["memoryTracker", "areas"] =>
    let areas := without d.memoryTracker.areas i
    { d with memoryTracker := { d.memoryTracker with areas } }
  | _ => d

def hasObject (d : Device) (name : Number) : Bool := d.objects.any fun o => decide (o.name = name)

def removeObject (d : Device) (name : Number) : Device :=
  { d with objects := d.objects.filter fun o => decide (o.name ≠ name) }

/-- The counter at a path, and the device with another in its place. -/
def counterAt? (d : Device) (path : DevicePath) : Option (Counter × (Counter → Device)) :=
  match path with
  | ["queues", key, field] => do
    let q ← d.queues[position key]?
    let part ← JobQueue.counters.lookup field
    pure (part.get q, fun c => d.changeQueue key fun q => part.put q c)
  | ["vmaCount"] => some (d.areaCount, fun c => { d with areaCount := c })
  | ["dma", "classes", key, "freeCount"] => do
    let pool ← d.dma
    let order := Number.ofText key
    let c ← pool.classAt? order
    pure (c.freeCount, fun n =>
      { d with dma := some (pool.putClass order { c with freeCount := n }) })
  | ["objectStats", field] => do
    let part ← ObjectStats.counters.lookup field
    pure (part.get d.objectStats, fun c => { d with objectStats := part.put d.objectStats c })
  | ["fenceManager", "count"] =>
    some (d.fenceManager.count, fun c =>
      { d with fenceManager := { d.fenceManager with count := c } })
  | ["bufferManager", "count"] =>
    some (d.bufferManager.count, fun c =>
      { d with bufferManager := { d.bufferManager with count := c } })
  | _ => none

/-- Counts at a path with a counting step; answers what the step answers. -/
def countAt? (d : Device) (path : DevicePath) (step : Counter → Int × Counter) :
    Option (Int × Device) := do
  let (c, put) ← d.counterAt? path
  let (answer, c) := step c
  pure (answer, put c)

end Device

end DeviceReports
