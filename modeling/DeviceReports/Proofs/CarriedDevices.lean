import DeviceReports.Device.Sample
import DeviceReports.Proofs.CarriedFields
import DeviceReports.Proofs.DigitKeys
import DeviceReports.Proofs.LastEntries
import DeviceReports.Proofs.UndeclaredKeys
import DeviceReports.Proofs.WholeFigures

/-!
# Devices that carry their snapshots

The device of an accepted snapshot has every value of the document in its place, the default of
every value that is left out, and nothing else: collections entry by entry, the buffer class of an
order and the object of a name as they were last described, and no trace of keys that the schema
does not name. Two figures are bounded by what holds them. The order of a class is a double, so
orders above 2^53 run together; the number of areas is kept in a counter, which wraps where there
are more than it can count.
-/

set_option autoImplicit false

namespace DeviceReports

/-! ### What it is to carry a part of a document -/

structure MapEntry.Carried (v : Value) (e : MapEntry) : Prop where
  fields : Carries MapEntry.rows v e
  mapping : Option.Rel (Carries Mapping.rows) (v.field "map").given? e.mapping

structure AreaEntry.Carried (v : Value) (e : AreaEntry) : Prop where
  fields : Carries AreaEntry.rows v e
  area : Option.Rel (Carries VirtualArea.rows) (v.field "vma").given? e.area

structure MemoryTracker.Carried (v : Value) (t : MemoryTracker) : Prop where
  fields : Carries MemoryTracker.rows v t
  areas : List.Forall₂ (Carries MemoryArea.rows) (v.field "areas").items t.areas

/-- Every query of the controller answers the figures of the document. -/
def MemoryControl.Carried (v : Value) (c : MemoryControl) : Prop :=
  ∃ status, Carries MemoryStatus.rows v status ∧ c = .constant status

/-- The described classes, in key order. -/
def DmaPool.entries (v : Value) : List (String × Value) := (v.field "classes").fields?.getD []

/-- The class of an order is the one of the last key whose decimal value is rounded to the order;
below 2^53 no value is rounded. -/
structure DmaPool.Carried (v : Value) (p : DmaPool) : Prop where
  buffers : List.Forall₂ (fun x n => x = .number n) (v.field "bufferLists").items p.buffers
  rounded : ∀ order : Number, Option.Rel (fun e c => Carries BufferClass.rows e.2 c)
    ((DmaPool.entries v).findRev? fun e => Number.ofNat (decimalValue e.1) == order)
    (p.classAt? order)
  exact : ∀ n < Number.exactBound, Option.Rel (fun e c => Carries BufferClass.rows e.2 c)
    ((DmaPool.entries v).findRev? fun e => decimalValue e.1 == n) (p.classAt? (.ofCount n))

/-- A device carries a snapshot document. An object stands where the first one of its name was
described, with the fields of the last one. -/
structure Device.Carried (v : Value) (d : Device) : Prop where
  index : d.index = v.field "index"
  driverName : d.driverName = v.field "driverName"
  busId : d.busId = v.field "busId"
  unique : Option.Rel (fun x s => x = .string s) (v.field "unique").given? d.unique
  lock : d.lock = {}
  maps : List.Forall₂ MapEntry.Carried (v.field "maps").items d.maps
  queues : List.Forall₂ (Carries JobQueue.rows) (v.field "queues").items d.queues
  dma : Option.Rel DmaPool.Carried (v.field "dma").given? d.dma
  clients : List.Forall₂ (Carries Client.rows) (v.field "clients").items d.clients
  names : d.objects.map (·.name) = ((v.field "objects").items.map (·.figure "name")).eraseDups
  objects : ∀ o ∈ d.objects, ∃ item,
    (v.field "objects").items.findRev? (·.figure "name" == o.name) = some item ∧
      Carries NamedObject.rows item o
  objectStats : Carries ObjectStats.rows (v.field "objectStats") d.objectStats
  fences : Carries FenceManager.rows (v.field "fences") d.fenceManager
  bufferObjects : Carries BufferManager.rows (v.field "bufferObjects") d.bufferManager
  memoryControl : MemoryControl.Carried (v.field "memoryControl") d.memoryControl
  memoryTracker : MemoryTracker.Carried (v.field "memoryTracker") d.memoryTracker
  areas : List.Forall₂ AreaEntry.Carried (v.field "vmas").items d.areas
  areaCount : (v.field "vmas").items.length ≤ Counter.maximum →
    d.areaCount.value = (v.field "vmas").items.length
  highMemory : Carries HighMemory.rows (v.field "highMemory") d.highMemory

/-! ### Parts before and after the check -/

/-- A part that may be absent, before and after the check. -/
inductive Checked (s : Schema) : Value → Value → Prop where
  | absent : Checked s .missing .missing
  | present {v : Value} (conforms : Schema.Conforms s v) : Checked s v (Schema.normalized s v)

namespace Checked

variable {T : Type} {s : Schema} {v w : Value}

theorem of_field {whole : Schema} (nodup : whole.fields.names.Nodup) {v : Value}
    (conforms : Schema.Conforms whole v) (key : String) {s : Schema}
    (declared : whole.fields.find? key = some (.optional, s)) :
    Checked s (v.field key) ((Schema.normalized whole v).field key) := by
  rcases Schema.field_normalized nodup conforms key declared with
    ⟨habsent, -, hfield⟩ | ⟨hpart, hfield⟩
  · rw [habsent, hfield]
    exact .absent
  · rw [hfield]
    exact .present hpart

/-- Lists are carried item by item, and an absent list is empty. -/
theorem items {item : Schema} (checked : Checked (.list item) v w) {R : Value → T → Prop}
    {make : Value → T}
    (each : ∀ x, Schema.Conforms item x → R x (make (Schema.normalized item x))) :
    List.Forall₂ R v.items (w.items.map make) := by
  cases checked with
  | absent => exact .nil
  | present conforms =>
    obtain ⟨xs, rfl, hxs⟩ := conforms
    rw [Schema.normalized]
    change List.Forall₂ R xs ((xs.map (Schema.normalized item)).map make)
    rw [List.map_map, List.forall₂_map_right_iff, List.forall₂_same]
    exact fun x hx => each x (hxs x hx)

/-- A record that may be absent is carried where it is there. -/
theorem option {fs : Fields} {closed : Bool} (checked : Checked (.record fs closed) v w)
    {R : Value → T → Prop} {make : Value → T}
    (each : ∀ x, Schema.Conforms (.record fs closed) x →
      R x (make (Schema.normalized (.record fs closed) x))) :
    Option.Rel R v.given? (w.present?.map make) := by
  cases checked with
  | absent => exact .none
  | present conforms =>
    have hpart := each _ conforms
    obtain ⟨fields, rfl, -⟩ := conforms
    rw [Schema.normalized] at hpart ⊢
    exact .some hpart

/-- A record with defaults for all its fields is carried whether it is there or not. -/
theorem record {R : Value → T → Prop} {make : Value → T} (checked : Checked s v w)
    (absent : R .missing (make .missing))
    (each : ∀ x, Schema.Conforms s x → R x (make (Schema.normalized s x))) : R v (make w) := by
  cases checked with
  | absent => exact absent
  | present conforms => exact each _ conforms

end Checked

/-- Where a whole record is absent, each row starts at what it stands for. -/
theorem Describes.carries_missing {T : Type} {rows : List (Row T)} {nested : List String}
    {schema : Schema} {make : Value → T} (table : Describes rows nested schema make)
    (starts : ∀ row ∈ rows, row.kind.startsAt .optional row.absent = true) :
    Carries rows .missing (make .missing) := by
  intro row hrow
  rw [List.map_inj_left.mp (table.made _) row hrow]
  exact (FieldKind.shown_absent (starts row hrow) nofun).symm

/-- A needed field is there, and normalized. -/
theorem Schema.field_required {s : Schema} (nodup : s.fields.names.Nodup) {v : Value}
    (conforms : Conforms s v) (key : String) {field : Schema}
    (declared : s.fields.find? key = some (.required, field)) :
    (normalized s v).field key = normalized field (v.field key) := by
  rcases field_normalized nodup conforms key declared with ⟨-, hrequired, -⟩ | ⟨-, hfield⟩
  · exact absurd rfl hrequired
  · exact hfield

/-! ### The parts of a device -/

namespace Snapshot

open LastEntries

variable {v w : Value}

theorem mapEntry_carried (conforms : Schema.Conforms mapEntry v) :
    MapEntry.Carried v (MapEntry.ofValue (Schema.normalized mapEntry v)) where
  fields := MapEntry.described.carries conforms
  mapping := (Checked.of_field MapEntry.described.distinct conforms "map" rfl).option
    fun _ => Mapping.described.carries

theorem areaEntry_carried (conforms : Schema.Conforms areaEntry v) :
    AreaEntry.Carried v (AreaEntry.ofValue (Schema.normalized areaEntry v)) where
  fields := AreaEntry.described.carries conforms
  area := (Checked.of_field AreaEntry.described.distinct conforms "vma" rfl).option
    fun _ => VirtualArea.described.carries

theorem memoryTracker_carried (conforms : Schema.Conforms memoryTracker v) :
    MemoryTracker.Carried v (MemoryTracker.ofValue (Schema.normalized memoryTracker v)) where
  fields := MemoryTracker.described.carries conforms
  areas := (Checked.of_field MemoryTracker.described.distinct conforms "areas" rfl).items
    fun _ => MemoryArea.described.carries

theorem memoryControl_carried (checked : Checked memoryControl v w) :
    MemoryControl.Carried v (MemoryControl.ofValue w) := by
  cases checked with
  | absent =>
    refine ⟨.zero, fun row hrow => ?_, rfl⟩
    simp only [MemoryStatus.rows, List.mem_cons, List.not_mem_nil, or_false] at hrow
    rcases hrow with rfl | rfl | rfl | rfl | rfl <;> rfl
  | present conforms =>
    have hstatus := MemoryStatus.described.carries conforms
    obtain ⟨fields, rfl, -⟩ := conforms
    -- a list of queries in the document would make the figures change, but the check drops it
    have hquery : (Schema.normalized memoryControl (.record fields)).hasKey "query" = false :=
      Schema.hasKey_normalized (by decide) _ fields
    have hcontrol : MemoryControl.ofValue (Schema.normalized memoryControl (.record fields)) =
        .constant (.ofValue (Schema.normalized memoryControl (.record fields))) :=
      if_neg (by rw [hquery]; nofun)
    exact ⟨_, hstatus, hcontrol⟩

theorem highMemory_carried (checked : Checked highMemory v w) :
    Carries HighMemory.rows v (HighMemory.ofValue w) := by
  cases checked with
  | absent =>
    intro row hrow
    simp only [HighMemory.rows, List.mem_cons, List.not_mem_nil, or_false] at hrow
    rcases hrow with rfl | rfl <;> rfl
  | present conforms =>
    have hfigures := HighMemory.described.carries conforms
    obtain ⟨fields, rfl, -⟩ := conforms
    exact hfigures

/-- The classes written one by one. -/
theorem pool_eq_filled (v : Value) :
    DmaPool.ofValue v = DmaPool.filled ((v.field "bufferLists").items.map (·.numberD .nan))
      ((DmaPool.entries v).map fun e => (Number.ofText e.1, BufferClass.ofValue e.2)) := by
  rw [DmaPool.filled, List.foldl_map]
  rfl

theorem entries_checked (conforms : Schema.Conforms dma v) :
    DmaPool.entries (Schema.normalized dma v) =
        (DmaPool.entries v).map (fun e => (e.1, Schema.normalized bufferClass e.2)) ∧
      ∀ e ∈ DmaPool.entries v,
        Schema.isDigits e.1 = true ∧ Schema.Conforms bufferClass e.2 := by
  rcases Schema.field_normalized (by decide) conforms "classes" rfl with
    ⟨habsent, -, hfield⟩ | ⟨⟨fields, hclasses, hfields⟩, hfield⟩
  · rw [DmaPool.entries, DmaPool.entries, hfield, habsent]
    exact ⟨rfl, nofun⟩
  · rw [DmaPool.entries, DmaPool.entries, hfield, hclasses, Schema.normalized]
    exact ⟨rfl, hfields⟩

/-- The class at an order is the one of the last key that reads as the order. -/
theorem classAt?_carried (conforms : Schema.Conforms dma v) {order : Number}
    {p : String × Value → Bool}
    (reads : ∀ e ∈ DmaPool.entries v, (Number.ofText e.1 == order) = p e) :
    Option.Rel (fun e c => Carries BufferClass.rows e.2 c) ((DmaPool.entries v).findRev? p)
      ((DmaPool.ofValue (Schema.normalized dma v)).classAt? order) := by
  obtain ⟨hentries, hgood⟩ := entries_checked conforms
  rw [pool_eq_filled, DmaPool.classAt?_filled, hentries, List.map_map, findRev?_map,
    Option.map_map]
  have hlast : ((DmaPool.entries v).findRev? fun e => Number.ofText e.1 == order) =
      (DmaPool.entries v).findRev? p := findRev?_congr reads
  simp only [Function.comp_apply] at hlast ⊢
  rw [hlast]
  rcases hfound : (DmaPool.entries v).findRev? p with _ | e
  · exact .none
  · have hclass := (hgood e (mem_of_findRev? hfound)).2
    exact .some (BufferClass.described.carries hclass)

theorem dma_carried (conforms : Schema.Conforms dma v) :
    DmaPool.Carried v (DmaPool.ofValue (Schema.normalized dma v)) where
  buffers := by
    rw [pool_eq_filled, DmaPool.buffers_filled]
    refine (Checked.of_field (by decide) conforms "bufferLists" rfl).items ?_
    rintro x ⟨n, rfl, -⟩
    rfl
  rounded order := by
    refine classAt?_carried conforms fun e he => ?_
    rw [DigitKeys.ofText_digits ((entries_checked conforms).2 e he).1]
  exact n small := by
    refine classAt?_carried conforms fun e he => ?_
    rw [DigitKeys.ofText_digits ((entries_checked conforms).2 e he).1]
    exact decide_eq_decide.mpr (DigitKeys.ofNat_eq_ofCount_iff small)

/-- Objects are read as they are described, and their names are those of the document. -/
theorem objects_checked (checked : Checked (.list namedObject) v w) :
    (w.items.map NamedObject.ofValue) =
        v.items.map (fun item => NamedObject.ofValue (Schema.normalized namedObject item)) ∧
      ∀ item ∈ v.items, Schema.Conforms namedObject item ∧
        (NamedObject.ofValue (Schema.normalized namedObject item)).name = item.figure "name" := by
  cases checked with
  | absent => exact ⟨rfl, nofun⟩
  | present conforms =>
    obtain ⟨items, rfl, hitems⟩ := conforms
    refine ⟨?_, fun item hitem => ?_⟩
    · rw [Schema.normalized]
      exact List.map_map
    · have hitem := hitems item hitem
      refine ⟨hitem, ?_⟩
      have hname := Schema.field_required (by decide) hitem "name" rfl
      rw [count, Schema.normalized_number] at hname
      exact congrArg (·.numberD .nan) hname

theorem registry_names (checked : Checked (.list namedObject) v w) :
    (Device.registry (w.items.map NamedObject.ofValue)).map (·.name) =
      (v.items.map (·.figure "name")).eraseDups := by
  obtain ⟨hread, hitems⟩ := objects_checked checked
  rw [Device.map_name_registry, hread, List.map_map]
  exact congrArg _ (List.map_congr_left fun item hitem => (hitems item hitem).2)

theorem registry_carried (checked : Checked (.list namedObject) v w) {o : NamedObject}
    (h : o ∈ Device.registry (w.items.map NamedObject.ofValue)) :
    ∃ item, v.items.findRev? (·.figure "name" == o.name) = some item ∧
      Carries NamedObject.rows item o := by
  obtain ⟨hread, hitems⟩ := objects_checked checked
  have hlast := Device.last_of_mem_registry h
  rw [hread, findRev?_map, findRev?_congr fun item hitem => by rw [(hitems item hitem).2],
    Option.map_eq_some_iff] at hlast
  obtain ⟨item, hfound, rfl⟩ := hlast
  exact ⟨item, hfound, NamedObject.described.carries (hitems item (mem_of_findRev? hfound)).1⟩

theorem unique_carried (checked : Checked (.text false) v w) :
    Option.Rel (fun x s => x = .string s) v.given? w.string? := by
  cases checked with
  | absent => exact .none
  | present conforms =>
    obtain ⟨s, rfl, -⟩ := conforms
    rw [Schema.normalized_text]
    exact .some rfl

theorem areaCount_eq (v : Value) :
    (Device.ofValue v).areaCount = Counter.ofNumber (Device.ofValue v).areas.length := rfl

theorem areaCount_carried {items : List Value} {areas : List AreaEntry}
    (carried : List.Forall₂ AreaEntry.Carried items areas)
    (few : items.length ≤ Counter.maximum) :
    (Counter.ofNumber areas.length).value = items.length := by
  have hexact : items.length ≤ Number.exactBound := few.trans (by decide)
  rw [← carried.length_eq, Number.ofNat_eq_ofCount hexact, Counter.value_ofNumber few]

theorem device_carried {document : Value} (conforms : Schema.Conforms schema document) :
    Device.Carried document (Device.ofValue (Schema.normalized schema document)) := by
  have hnames : schema.fields.names.Nodup := by decide
  have hpart (key : String) {s : Schema}
      (declared : schema.fields.find? key = some (.optional, s)) :
      Checked s (document.field key) ((Schema.normalized schema document).field key) :=
    .of_field hnames conforms key declared
  have hlock : (Schema.normalized schema document).field "lock" = .missing := by
    obtain ⟨fields, rfl, -⟩ := conforms
    exact Schema.lookup_normalizedFields_of_notMem (by decide) _
  have hareas := (hpart "vmas" rfl).items fun _ => areaEntry_carried
  exact {
    index := by
      rw [← Schema.normalized_number [.integer, .atLeast 0] (document.field "index")]
      exact Schema.field_required hnames conforms "index" rfl
    driverName := by
      rw [← Schema.normalized_text true (document.field "driverName")]
      exact Schema.field_required hnames conforms "driverName" rfl
    busId := by
      rw [← Schema.normalized_text true (document.field "busId")]
      exact Schema.field_required hnames conforms "busId" rfl
    unique := unique_carried (hpart "unique" rfl)
    lock := by
      rw [Device.ofValue, hlock]
      rfl
    maps := (hpart "maps" rfl).items fun _ => mapEntry_carried
    queues := (hpart "queues" rfl).items fun _ => JobQueue.described.carries
    dma := (hpart "dma" rfl).option fun _ => dma_carried
    clients := (hpart "clients" rfl).items fun _ => Client.described.carries
    names := by
      rw [← registry_names (hpart "objects" rfl), Device.registry, List.foldl_map]
      rfl
    objects := fun o ho => by
      refine registry_carried (hpart "objects" rfl) ?_
      rwa [Device.registry, List.foldl_map]
    objectStats := (hpart "objectStats" rfl).record
      (ObjectStats.described.carries_missing (by decide)) fun _ => ObjectStats.described.carries
    fences := (hpart "fences" rfl).record
      (FenceManager.described.carries_missing (by decide)) fun _ => FenceManager.described.carries
    bufferObjects := (hpart "bufferObjects" rfl).record
      (BufferManager.described.carries_missing (by decide))
      fun _ => BufferManager.described.carries
    memoryControl := memoryControl_carried (hpart "memoryControl" rfl)
    memoryTracker := (hpart "memoryTracker" rfl).record
      ⟨MemoryTracker.described.carries_missing (by decide), .nil⟩ fun _ => memoryTracker_carried
    areas := hareas
    areaCount := areaCount_carried hareas
    highMemory := highMemory_carried (hpart "highMemory" rfl) }

/-- The device of an accepted snapshot carries the document, and an accepted document that differs
only in keys that the schema does not name builds the same device. -/
theorem load_carries (document : Value) (source : String) (d : Device)
    (loaded : load document source = .ok d) :
    Device.Carried document d ∧
      ∀ (other : Value) (source' : String) (d' : Device), load other source' = .ok d' →
        Schema.Same schema document other → d' = d := by
  obtain ⟨hconforms, rfl⟩ := load_eq_ok.mp loaded
  refine ⟨device_carried hconforms, fun other source' d' loaded' same => ?_⟩
  obtain ⟨-, rfl⟩ := load_eq_ok.mp loaded'
  rw [Schema.normalized_eq_of_same same]

/-! ### A document with entries written over -/

theorem of_rel_some {A B : Type} {R : A → B → Prop} {a : A} {o : Option B}
    (h : Option.Rel R (some a) o) : ∃ b, o = some b ∧ R a b := by
  cases h with
  | some hab => exact ⟨_, rfl, hab⟩

theorem bufSize_of_carries {x : Value} {c : BufferClass} (carries : Carries BufferClass.rows x c) :
    c.bufSize = x.figure "bufSize" := by
  have hrow : x.fieldOr "bufSize" .required = .number c.bufSize :=
    carries (.needed "bufSize" .required (·.bufSize)) (by simp [BufferClass.rows])
  rw [Value.fieldOr] at hrow
  split at hrow
  · cases hrow
  · rw [Value.figure, hrow]
    rfl

/-- Two keys of order 4, an object described twice, and more fields of the memory controller and of
the whole. -/
def rewritten (control extra : List (String × Value)) : Value :=
  .record (Sample.identity ++ [
    ("dma", .record [("classes",
      .record [("4", Sample.bufferClass 1 1 1 1 4), ("04", Sample.bufferClass 2 2 2 2 4)])]),
    ("objects", .list [Sample.namedObject 7 1 1 1, Sample.namedObject 9 1 1 1,
      Sample.namedObject 7 2 2 2]),
    ("memoryControl", .record (control ++ Sample.figures [("usedMemory", 1), ("usedEmergency", 2),
      ("lowThreshold", 3), ("highThreshold", 4), ("emergencyThreshold", 5)]))] ++ extra)

theorem load_rewritten :
    ∃ d p, load (rewritten [] []) = .ok d ∧
      load (rewritten [("query", .list [.null])] [("note", .null)]) = .ok d ∧
      d.objects.map (·.name) = [.ofCount 7, .ofCount 9] ∧
      d.dma = some p ∧ (p.classAt? (.ofCount 4)).map (·.bufSize) = some (.ofCount 2) := by
  obtain ⟨d, hload⟩ : ∃ d, load (rewritten [] []) = .ok d := ⟨_, rfl⟩
  obtain ⟨d', hload'⟩ :
      ∃ d', load (rewritten [("query", .list [.null])] [("note", .null)]) = .ok d' := ⟨_, rfl⟩
  obtain ⟨hcarried, hsame⟩ := load_carries _ _ d hload
  have hdevice : d' = d := hsame _ _ d' hload'
    ⟨rfl, rfl, rfl, rfl, rfl, rfl, Schema.same_refl _ _, rfl, Schema.same_refl _ _, rfl, rfl, rfl,
      ⟨rfl, rfl, rfl, rfl, rfl, trivial⟩, rfl, rfl, rfl, trivial⟩
  have hnames : d.objects.map (·.name) = [.ofCount 7, .ofCount 9] := by
    rw [hcarried.names]
    decide +kernel
  obtain ⟨p, hdma, hpool⟩ := of_rel_some hcarried.dma
  have hlast : (DmaPool.entries ((rewritten [] []).field "dma")).findRev?
      (fun e => decimalValue e.1 == 4) = some ("04", Sample.bufferClass 2 2 2 2 4) := rfl
  obtain ⟨c, hclass, hfields⟩ := of_rel_some (hlast ▸ hpool.exact 4 (by decide))
  have hsize : c.bufSize = .ofCount 2 := by
    rw [bufSize_of_carries hfields]
    decide +kernel
  refine ⟨d, p, hload, hdevice ▸ hload', hnames, hdma, ?_⟩
  rw [hclass, Option.map_some, hsize]

/-! ### Orders and areas that are not told apart -/

/-- Two orders, of which only the first is a double. -/
def twins : Value :=
  .record (Sample.identity ++ [("dma", .record [("classes",
    .record [("9007199254740992", Sample.bufferClass 1 1 1 1 0),
      ("9007199254740993", Sample.bufferClass 2 2 2 2 0)])])])

/-- So many entries for one process. -/
def crowd (n : Nat) : Value :=
  .record (Sample.identity ++
    [("vmas", .list (List.replicate n (.record (Sample.figures [("pid", 1)]))))])

theorem conforms_crowd (n : Nat) : Schema.Conforms schema (crowd n) := by
  have hentry : Schema.Conforms areaEntry (.record (Sample.figures [("pid", 1)])) :=
    (Schema.issues_eq_nil _ [] _).mp rfl
  have hareas : Schema.itemIssues (Schema.issues areaEntry) ["vmas"] 0
      (List.replicate n (.record (Sample.figures [("pid", 1)]))) = [] := by
    refine (Schema.itemIssues_eq_nil (Schema.issues_eq_nil areaEntry) 0).mpr fun i hi => ?_
    rw [List.eq_of_mem_replicate hi]
    exact hentry
  exact (Schema.issues_eq_nil schema [] (crowd n)).mp (congrArg (· ++ [] ++ []) hareas)

theorem orders_and_areas_run_together :
    (∃ d p, load twins = .ok d ∧ d.dma = some p ∧
        ¬ Option.Rel (fun e c => Carries BufferClass.rows e.2 c)
          ((DmaPool.entries (twins.field "dma")).findRev? fun e =>
            decimalValue e.1 == 9007199254740992)
          (p.classAt? (.ofCount 9007199254740992))) ∧
      ∃ d, load (crowd (2 ^ 31)) = .ok d ∧ ((crowd (2 ^ 31)).field "vmas").items.length = 2 ^ 31 ∧
        d.areaCount.value = -(2 ^ 31) := by
  constructor
  · have hconforms : Schema.Conforms schema twins := (Schema.issues_eq_nil _ [] _).mp rfl
    obtain ⟨p, hdma, hpool⟩ := of_rel_some (device_carried hconforms).dma
    refine ⟨_, p, load_eq_ok.mpr ⟨hconforms, rfl⟩, hdma, fun hclaimed => ?_⟩
    have hread : (DmaPool.entries (twins.field "dma")).findRev?
        (fun e => Number.ofNat (decimalValue e.1) == .ofCount 9007199254740992) =
          some ("9007199254740993", Sample.bufferClass 2 2 2 2 0) :=
      (findRev?_concat [("9007199254740992", Sample.bufferClass 1 1 1 1 0)] _).trans
        (if_pos (by decide +kernel))
    have hexact : (DmaPool.entries (twins.field "dma")).findRev?
        (fun e => decimalValue e.1 == 9007199254740992) =
          some ("9007199254740992", Sample.bufferClass 1 1 1 1 0) := rfl
    obtain ⟨c, hclass, hfields⟩ := of_rel_some (hread ▸ hpool.rounded (.ofCount 9007199254740992))
    rw [hexact, hclass] at hclaimed
    obtain ⟨c', hsame, hfields'⟩ := of_rel_some hclaimed
    cases hsame
    have hsizes := (bufSize_of_carries hfields).symm.trans (bufSize_of_carries hfields')
    exact absurd hsizes (by decide +kernel)
  · have hitems : ((crowd (2 ^ 31)).field "vmas").items.length = 2 ^ 31 := List.length_replicate
    have hareas := (device_carried (conforms_crowd (2 ^ 31))).areas.length_eq
    refine ⟨_, load_eq_ok.mpr ⟨conforms_crowd (2 ^ 31), rfl⟩, hitems, ?_⟩
    rw [areaCount_eq, ← hareas, hitems]
    decide +kernel

end Snapshot

end DeviceReports
