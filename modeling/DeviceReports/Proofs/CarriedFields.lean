import DeviceReports.Device.Snapshot
import DeviceReports.Proofs.Counts
import DeviceReports.Proofs.Grammar

/-!
# Fields that a device carries over

A record of a snapshot becomes a record of the device, field by field: figures and texts as they
stand, flags as flags or as counters of one and zero, and other counters at the figure. A table
lists, for each field of such a record, what it stands for where the document leaves it out and
where the device keeps it. One check of a table against the schema shows that every value is kept
unchanged, and that no counter wraps on the way.
-/

set_option autoImplicit false

namespace DeviceReports

namespace Counter

variable {n : Nat}

/-- A count that fits is what the counter then holds. -/
theorem value_ofNumber (fits : n ≤ maximum) : (ofNumber (.ofCount n)).value = n := by
  have hword : (Number.ofCount n).word32 = Int32.ofInt n := by
    simp [Number.word32, Number.ofCount]
  rw [ofNumber, value, hword]
  unfold maximum at fits
  exact Int32.toInt_ofInt_of_le (by omega) (by omega)

/-- A counter that stands at a count reads as it. -/
theorem number_of_value {c : Counter} (h : c.value = n) : c.number = .ofCount n := by
  have hhigh : c.value < 2147483648 := c.word.toInt_lt
  have hsmall : n ≤ Number.exactBound := by
    unfold Number.exactBound
    omega
  rw [number, h, Number.ofInt, Int.cast_natCast, Number.ofRat_natCast hsmall]

theorem number_ofNumber (fits : n ≤ maximum) : (ofNumber (.ofCount n)).number = .ofCount n :=
  number_of_value (value_ofNumber fits)

end Counter

/-- What a device keeps of a field. -/
inductive Kept where
  | figure (x : Number)
  | counter (c : Counter)
  | flag (b : Bool)
  | switch (c : Counter)
  | text (s : String)

/-- The document value that is kept: a counter stands for the figure that it reads back as, and a
switch for yes at one and for no at zero. -/
def Kept.shown : Kept → Value
  | .figure x => .number x
  | .counter c => .number c.number
  | .flag b => .bool b
  | .switch c => if c.value = 1 then .bool true else if c.value = 0 then .bool false else .missing
  | .text s => .string s

/-- How a device reads a field; figures and counters have something to start from where there is
nothing to read. -/
inductive FieldKind where
  | figure (start : Number)
  | counter (start : Number)
  | flag
  | switch
  | text
deriving DecidableEq

def FieldKind.read : FieldKind → Value → Kept
  | .figure start, v => .figure (v.numberD start)
  | .counter start, v => .counter (Counter.ofNumber (v.numberD start))
  | .flag, v => .flag (v.boolD false)
  | .switch, v => .switch (Counter.ofNumber (if v.boolD false then 1 else 0))
  | .text, v => .text (v.stringD "")

/-- A field of a record: its key, what it stands for where it is absent, and what the device keeps
of it. -/
structure Row (T : Type) where
  key : String
  absent : Presence
  kind : FieldKind
  kept : T → Kept

namespace Row

variable {T : Type}

def figure (key : String) (absent : Number) (f : T → Number) : Row T :=
  ⟨key, .default absent, .figure absent, fun t => .figure (f t)⟩

/-- A figure that has to be there, or that the schema fills in. -/
def needed (key : String) (absent : Presence) (f : T → Number) : Row T :=
  ⟨key, absent, .figure .nan, fun t => .figure (f t)⟩

def counter (key : String) (absent : Number) (f : T → Counter) : Row T :=
  ⟨key, .default absent, .counter absent, fun t => .counter (f t)⟩

def flag (key : String) (f : T → Bool) : Row T :=
  ⟨key, .defaultFlag false, .flag, fun t => .flag (f t)⟩

def switch (key : String) (f : T → Counter) : Row T :=
  ⟨key, .defaultFlag false, .switch, fun t => .switch (f t)⟩

def text (key : String) (f : T → String) : Row T :=
  ⟨key, .required, .text, fun t => .text (f t)⟩

end Row

/-- A field, or what stands for it where it is absent. -/
def Value.fieldOr (v : Value) (key : String) (absent : Presence) : Value :=
  match v.field key with
  | .missing => Schema.substitute absent
  | x => x

/-- A record of the device carries each field of a table as the document has it. -/
def Carries {T : Type} (rows : List (Row T)) (v : Value) (t : T) : Prop :=
  ∀ row ∈ rows, v.fieldOr row.key row.absent = (row.kept t).shown

/-! ### Tables and schemas -/

namespace FieldKind

/-- Whether a figure may be stored in a counter as it stands. -/
def storable (x : Number) : Bool :=
  match x.count? with
  | some n => decide (n ≤ Counter.maximum)
  | none => false

/-- A rule that keeps a number within a counter. -/
def bounds : NumberRule → Bool
  | .atMost bound _ => decide (bound ≤ Counter.maximum)
  | _ => false

/-- Whether values of a schema are read without loss. -/
def reads : FieldKind → Schema → Bool
  | .figure _, .number _ => true
  | .counter _, .number rules =>
    rules.contains .integer && rules.contains (.atLeast 0) && rules.any bounds
  | .flag, .boolean => true
  | .switch, .boolean => true
  | .text, .text _ => true
  | _, _ => false

/-- Whether an absent field is read as what it stands for. -/
def startsAt : FieldKind → Presence → Presence → Bool
  | _, .required, _ => true
  | .figure start, .optional, absent => decide (absent = .default start)
  | .counter start, .optional, absent => decide (absent = .default start) && storable start
  | .flag, .optional, absent => decide (absent = .defaultFlag false)
  | .switch, .optional, absent => decide (absent = .defaultFlag false)
  | .figure _, .default n, absent => decide (absent = .default n)
  | _, _, _ => false

theorem shown_counter {x : Number} (h : storable x = true) :
    (Kept.counter (Counter.ofNumber x)).shown = .number x := by
  rw [storable] at h
  split at h
  · next n hcount =>
    obtain ⟨rfl, -⟩ := Number.eq_ofCount_of_count? hcount
    exact congrArg Value.number (Counter.number_ofNumber (of_decide_eq_true h))
  · cases h

theorem shown_switch (b : Bool) :
    (Kept.switch (Counter.ofNumber (if b then 1 else 0))).shown = .bool b := by
  have hone : (1 : Number) = .ofCount 1 := Number.ofNat_eq_ofCount (by decide)
  have hzero : (0 : Number) = .ofCount 0 := Number.ofNat_eq_ofCount (by decide)
  cases b
  · have hvalue := Counter.value_ofNumber (show 0 ≤ Counter.maximum by decide)
    simp [Kept.shown, hzero, hvalue]
  · have hvalue := Counter.value_ofNumber (show 1 ≤ Counter.maximum by decide)
    simp [Kept.shown, hone, hvalue]

/-- A number that keeps the rules of a counter's field can be stored as it stands. -/
theorem storable_of_holds {rules : List NumberRule} {x : Number}
    (reads : (rules.contains .integer && rules.contains (.atLeast 0) && rules.any bounds) = true)
    (holds : ∀ r ∈ rules, r.holds x = true) : storable x = true := by
  rw [Bool.and_eq_true, Bool.and_eq_true, List.contains_iff_mem, List.contains_iff_mem,
    List.any_eq_true] at reads
  obtain ⟨⟨hinteger, hleast⟩, r, hr, hbounds⟩ := reads
  have hnonneg : Number.ofCount 0 ≤ x := by
    have hzero : ((0 : Nat) : Number) = .ofCount 0 := Number.ofNat_eq_ofCount (Nat.zero_le _)
    exact hzero ▸ of_decide_eq_true (holds _ hleast)
  obtain ⟨n, -, rfl⟩ := Number.exists_ofCount (holds _ hinteger) hnonneg
  cases r with
  | atMost bound message =>
    have hbound : bound ≤ Counter.maximum := of_decide_eq_true hbounds
    have hexact : bound < Number.exactBound := lt_of_le_of_lt hbound (by decide)
    have hle : n ≤ bound := by
      have hmost : Number.ofCount n ≤ Number.ofNat bound := of_decide_eq_true (holds _ hr)
      rw [Number.ofNat_eq_ofCount hexact.le] at hmost
      exact Number.ofCount_le_ofCount.mp hmost
    rw [storable, Number.count?_ofCount (hle.trans_lt hexact)]
    exact decide_eq_true (hle.trans hbound)
  | _ => cases hbounds

/-- A value that conforms to a schema is kept as it stands. -/
theorem shown_read {kind : FieldKind} {schema : Schema} (reads : kind.reads schema = true)
    {v : Value} (conforms : Schema.Conforms schema v) :
    (kind.read (Schema.normalized schema v)).shown = v := by
  cases schema with
  | number rules =>
    obtain ⟨x, rfl, -, hrules⟩ := conforms
    cases kind with
    | figure start => rfl
    | counter start => exact shown_counter (storable_of_holds reads hrules)
    | _ => cases reads
  | boolean =>
    obtain ⟨b, rfl⟩ := conforms
    cases kind with
    | flag => rfl
    | switch => exact shown_switch b
    | _ => cases reads
  | text nonempty =>
    obtain ⟨s, rfl, -⟩ := conforms
    cases kind with
    | text => rfl
    | _ => cases reads
  | _ => cases kind <;> cases reads

/-- Where nothing is read, what an absent field stands for is kept. -/
theorem shown_absent {kind : FieldKind} {presence absent : Presence}
    (starts : kind.startsAt presence absent = true) (optional : presence ≠ .required) :
    (kind.read (Schema.substitute presence)).shown = Schema.substitute absent := by
  cases presence with
  | required => exact absurd rfl optional
  | optional =>
    cases kind with
    | figure start =>
      rw [of_decide_eq_true starts]
      rfl
    | counter start =>
      obtain ⟨habsent, hstorable⟩ := (Bool.and_eq_true _ _).mp starts
      rw [of_decide_eq_true habsent]
      exact shown_counter hstorable
    | flag =>
      rw [of_decide_eq_true starts]
      rfl
    | switch =>
      rw [of_decide_eq_true starts]
      exact shown_switch false
    | text => cases starts
  | default n =>
    cases kind with
    | figure start =>
      rw [of_decide_eq_true starts]
      rfl
    | _ => cases starts
  | defaultFlag b => cases kind <;> cases starts

end FieldKind

/-- Whether the schema lets through what a row can keep, and fills in what the row says. -/
def Row.fits {T : Type} (row : Row T) (fs : Fields) : Bool :=
  match fs.find? row.key with
  | some (presence, field) => row.kind.startsAt presence row.absent && row.kind.reads field
  | none => false

/-- A table that describes the records of a schema: it has a row for each declared field but those
with fields or items of their own, and a record is made by reading its rows. -/
structure Describes {T : Type} (rows : List (Row T)) (nested : List String) (schema : Schema)
    (make : Value → T) : Prop where
  complete : ∀ name ∈ schema.fields.names, name ∈ rows.map Row.key ++ nested
  distinct : schema.fields.names.Nodup
  fits : ∀ row ∈ rows, row.fits schema.fields = true
  made : ∀ v, rows.map (fun row => row.kept (make v)) =
    rows.map fun row => row.kind.read (v.field row.key)

/-- A record made from a checked one carries the fields of the one before the check. -/
theorem Describes.carries {T : Type} {rows : List (Row T)} {nested : List String} {schema : Schema}
    {make : Value → T} (table : Describes rows nested schema make) {v : Value}
    (conforms : Schema.Conforms schema v) : Carries rows v (make (Schema.normalized schema v)) := by
  intro row hrow
  have hfits := table.fits row hrow
  rw [Row.fits] at hfits
  split at hfits
  · next presence field hdeclared =>
    obtain ⟨hstarts, hreads⟩ := (Bool.and_eq_true _ _).mp hfits
    rw [List.map_inj_left.mp (table.made _) row hrow, Value.fieldOr]
    rcases Schema.field_normalized table.distinct conforms row.key hdeclared with
      ⟨habsent, hoptional, hfield⟩ | ⟨hconforms, hfield⟩
    · rw [habsent, hfield]
      exact (FieldKind.shown_absent hstarts hoptional).symm
    · rw [hfield, FieldKind.shown_read hreads hconforms]
      split
      · next hmissing =>
        rw [hmissing] at hconforms
        exact absurd hconforms (Schema.not_conforms_missing field)
      · rfl
  · cases hfits

/-- A counter of a checked record stands at a count: what it is read from fits, and so does what it
starts at. -/
theorem Describes.counted {T : Type} {rows : List (Row T)} {nested : List String} {schema : Schema}
    {make : Value → T} (table : Describes rows nested schema make) {v : Value}
    (conforms : Schema.Conforms schema v) (row : Row T) (hrow : row ∈ rows) {c : Counter}
    (kept : row.kept (make (Schema.normalized schema v)) = .counter c) :
    ∃ n ≤ Counter.maximum, c.value = n := by
  have hcount {x : Number} (storable : FieldKind.storable x = true) :
      ∃ n ≤ Counter.maximum, (Counter.ofNumber x).value = n := by
    rw [FieldKind.storable] at storable
    split at storable
    · next n hn =>
      obtain ⟨rfl, -⟩ := Number.eq_ofCount_of_count? hn
      have hfits : n ≤ Counter.maximum := of_decide_eq_true storable
      exact ⟨n, hfits, Counter.value_ofNumber hfits⟩
    · cases storable
  have hfits := table.fits row hrow
  rw [Row.fits] at hfits
  rw [List.map_inj_left.mp (table.made _) row hrow] at kept
  split at hfits
  · next presence field hdeclared =>
    obtain ⟨hstarts, hreads⟩ := (Bool.and_eq_true _ _).mp hfits
    cases hkind : row.kind with
    | counter start =>
      rw [hkind] at kept hstarts hreads
      obtain rfl : Counter.ofNumber _ = c := Kept.counter.inj kept
      apply hcount
      rcases Schema.field_normalized table.distinct conforms row.key hdeclared with
        ⟨-, hoptional, hfield⟩ | ⟨hconforms, hfield⟩
      · cases presence with
        | optional =>
          rw [hfield]
          exact ((Bool.and_eq_true _ _).mp hstarts).2
        | required => exact absurd rfl hoptional
        | _ => cases hstarts
      · cases field with
        | number rules =>
          obtain ⟨x, hx, -, hrules⟩ := hconforms
          rw [hfield, hx]
          exact FieldKind.storable_of_holds hreads hrules
        | _ => cases hreads
    | _ =>
      rw [hkind] at kept
      cases kept
  · cases hfits

/-! ### The tables -/

namespace Mapping

def rows : List (Row Mapping) :=
  [.needed "offset" .required (·.offset), .needed "size" .required (·.size),
    .needed "type" .required (·.kind), .needed "flags" .required (·.flags),
    .needed "mtrr" (.default (-1)) (·.mtrr)]

theorem described : Describes rows [] Snapshot.mapping Mapping.ofValue :=
  ⟨by decide, by decide, by decide, fun _ => rfl⟩

end Mapping

namespace MapEntry

def rows : List (Row MapEntry) := [.needed "userToken" (.default 0) (·.userToken)]

theorem described : Describes rows ["map"] Snapshot.mapEntry MapEntry.ofValue :=
  ⟨by decide, by decide, by decide, fun _ => rfl⟩

end MapEntry

namespace JobQueue

def rows : List (Row JobQueue) :=
  [.figure "flags" 0 (·.flags), .counter "useCount" 0 (·.useCount),
    .counter "finalization" 0 (·.finalization), .counter "blockCount" 0 (·.blockCount),
    .switch "blockRead" (·.blockRead), .switch "blockWrite" (·.blockWrite),
    .figure "readWaiters" 0 (·.readWaiters), .figure "writeWaiters" 0 (·.writeWaiters),
    .figure "flushWaiters" 0 (·.flushWaiters), .figure "waitlistCount" 0 (·.waitlistCount),
    .counter "totalFlushed" 0 (·.totalFlushed), .counter "totalQueued" 0 (·.totalQueued),
    .counter "totalLocks" 0 (·.totalLocks)]

theorem described : Describes rows [] Snapshot.queue JobQueue.ofValue :=
  ⟨by decide, by decide, by decide, fun _ => rfl⟩

end JobQueue

namespace BufferClass

def rows : List (Row BufferClass) :=
  [.needed "bufSize" .required (·.bufSize), .needed "bufCount" .required (·.bufCount),
    .counter "freeCount" 0 (·.freeCount), .needed "segCount" .required (·.segCount),
    .needed "pageOrder" .required (·.pageOrder)]

theorem described : Describes rows [] Snapshot.bufferClass BufferClass.ofValue :=
  ⟨by decide, by decide, by decide, fun _ => rfl⟩

end BufferClass

namespace Client

def rows : List (Row Client) :=
  [.flag "authenticated" (·.authenticated), .needed "minorIndex" .required (·.minorIndex),
    .needed "pid" .required (·.pid), .needed "uid" .required (·.uid),
    .needed "magic" .required (·.magic), .needed "ioctlCount" .required (·.ioctlCount)]

theorem described : Describes rows [] Snapshot.client Client.ofValue :=
  ⟨by decide, by decide, by decide, fun _ => rfl⟩

end Client

namespace NamedObject

def rows : List (Row NamedObject) :=
  [.needed "name" .required (·.name), .needed "size" .required (·.size),
    .counter "handleCount" 0 (·.handleCount), .counter "refCount" 1 (·.refCount)]

theorem described : Describes rows [] Snapshot.namedObject NamedObject.ofValue :=
  ⟨by decide, by decide, by decide, fun _ => rfl⟩

end NamedObject

namespace ObjectStats

def rows : List (Row ObjectStats) :=
  [.counter "objectCount" 0 (·.objectCount), .counter "objectMemory" 0 (·.objectMemory),
    .counter "pinCount" 0 (·.pinCount), .counter "pinMemory" 0 (·.pinMemory),
    .counter "gttMemory" 0 (·.gttMemory), .figure "gttTotal" 0 (·.gttTotal)]

theorem described : Describes rows [] Snapshot.objectStats ObjectStats.ofValue :=
  ⟨by decide, by decide, by decide, fun _ => rfl⟩

end ObjectStats

namespace FenceManager

def rows : List (Row FenceManager) :=
  [.flag "initialized" (·.initialized), .counter "count" 0 (·.count)]

theorem described : Describes rows [] Snapshot.fences FenceManager.ofValue :=
  ⟨by decide, by decide, by decide, fun _ => rfl⟩

end FenceManager

namespace BufferManager

def rows : List (Row BufferManager) :=
  [.flag "initialized" (·.initialized), .counter "count" 0 (·.count),
    .figure "lockedPages" 0 (·.curPages)]

theorem described : Describes rows [] Snapshot.bufferObjects BufferManager.ofValue :=
  ⟨by decide, by decide, by decide, fun _ => rfl⟩

end BufferManager

namespace MemoryStatus

def rows : List (Row MemoryStatus) :=
  [.needed "usedMemory" (.default 0) (·.usedMemory),
    .needed "usedEmergency" (.default 0) (·.usedEmergency),
    .needed "lowThreshold" (.default 0) (·.lowThreshold),
    .needed "highThreshold" (.default 0) (·.highThreshold),
    .needed "emergencyThreshold" (.default 0) (·.emergencyThreshold)]

theorem described : Describes rows [] Snapshot.memoryControl MemoryStatus.ofValue :=
  ⟨by decide, by decide, by decide, fun _ => rfl⟩

end MemoryStatus

namespace MemoryArea

def rows : List (Row MemoryArea) :=
  [.text "name" (·.name), .needed "succeedCount" .required (·.succeedCount),
    .needed "freeCount" .required (·.freeCount), .needed "failCount" .required (·.failCount),
    .needed "bytesAllocated" .required (·.bytesAllocated),
    .needed "bytesFreed" .required (·.bytesFreed)]

theorem described : Describes rows [] Snapshot.memoryArea MemoryArea.ofValue :=
  ⟨by decide, by decide, by decide, fun _ => rfl⟩

end MemoryArea

namespace MemoryTracker

def rows : List (Row MemoryTracker) :=
  [.figure "ramAvailablePages" 0 (·.ramAvailablePages),
    .figure "ramUsedBytes" 0 (·.ramUsedBytes)]

theorem described : Describes rows ["areas"] Snapshot.memoryTracker MemoryTracker.ofValue :=
  ⟨by decide, by decide, by decide, fun _ => rfl⟩

end MemoryTracker

namespace VirtualArea

def rows : List (Row VirtualArea) :=
  [.needed "start" .required (·.start), .needed "end" .required (·.stop),
    .needed "flags" .required (·.flags), .needed "pageOffset" .required (·.pageOffset),
    .needed "pageProtection" (.default 0) (·.pageProtection)]

theorem described : Describes rows [] Snapshot.virtualArea VirtualArea.ofValue :=
  ⟨by decide, by decide, by decide, fun _ => rfl⟩

end VirtualArea

namespace AreaEntry

def rows : List (Row AreaEntry) := [.needed "pid" .required (·.pid)]

theorem described : Describes rows ["vma"] Snapshot.areaEntry AreaEntry.ofValue :=
  ⟨by decide, by decide, by decide, fun _ => rfl⟩

end AreaEntry

namespace HighMemory

def rows : List (Row HighMemory) :=
  [.needed "virtual" (.default 0) (·.virtual), .needed "physical" (.default 0) (·.physical)]

theorem described :
    Describes rows [] Snapshot.highMemory fun v => ⟨v.figure "virtual", v.figure "physical"⟩ :=
  ⟨by decide, by decide, by decide, fun _ => rfl⟩

end HighMemory

end DeviceReports
