import DeviceReports.Proofs.WholeFigures

/-!
# Devices without their texts

Two documents differ in the contents of texts alone when they are the same once every text is
blanked. Checking a document keeps it so, and so does describing a device: of the parts of a
device only the driver, the bus, the unique name and the names of memory areas come from texts.
-/

set_option autoImplicit false

namespace DeviceReports

namespace Value

mutual

/-- A value with every text in it made empty. Keys are no texts. -/
def blanked : Value → Value
  | .string _ => .string ""
  | .list items => .list (blankedItems items)
  | .record fields => .record (blankedFields fields)
  | v => v

def blankedItems : List Value → List Value
  | [] => []
  | v :: rest => blanked v :: blankedItems rest

def blankedFields : List (String × Value) → List (String × Value)
  | [] => []
  | (key, v) :: rest => (key, blanked v) :: blankedFields rest

end

theorem blankedItems_eq (items : List Value) : blankedItems items = items.map blanked := by
  induction items with
  | nil => rfl
  | cons v rest ih => rw [blankedItems, ih, List.map_cons]

theorem blankedFields_eq (fields : List (String × Value)) :
    blankedFields fields = fields.map fun f => (f.1, f.2.blanked) := by
  induction fields with
  | nil => rfl
  | cons f rest ih => rw [blankedFields, ih, List.map_cons]

variable (v : Value) (key : String)

theorem blanked_list (items : List Value) :
    (Value.list items).blanked = .list (items.map blanked) := by
  rw [blanked, blankedItems_eq]

theorem blanked_record (fields : List (String × Value)) :
    (Value.record fields).blanked = .record (fields.map fun f => (f.1, f.2.blanked)) := by
  rw [blanked, blankedFields_eq]

theorem lookup_blanked (fields : List (String × Value)) :
    lookup (fields.map fun f => (f.1, f.2.blanked)) key = (lookup fields key).blanked := by
  induction fields with
  | nil => rfl
  | cons f rest ih =>
    unfold lookup at ih ⊢
    rw [List.map_cons, List.find?_cons, List.find?_cons]
    dsimp only
    cases f.1 == key with
    | true => rfl
    | false => exact ih

@[simp] theorem field_blanked : v.blanked.field key = (v.field key).blanked := by
  cases v with
  | record fields =>
    rw [blanked_record]
    exact lookup_blanked key fields
  | _ => rfl

@[simp] theorem isMissing_blanked : v.blanked.isMissing = v.isMissing := by
  cases v <;> rfl

@[simp] theorem hasKey_blanked : v.blanked.hasKey key = v.hasKey key := by
  cases v with
  | record fields =>
    rw [blanked_record, hasKey, hasKey, List.any_map]
    rfl
  | _ => rfl

@[simp] theorem items_blanked : v.blanked.items = v.items.map blanked := by
  cases v with
  | list items => rw [blanked_list]; rfl
  | _ => rfl

@[simp] theorem present?_blanked : v.blanked.present? = v.present?.map blanked := by
  cases v <;> rfl

@[simp] theorem fields?_blanked :
    v.blanked.fields? = v.fields?.map fun fields => fields.map fun f => (f.1, f.2.blanked) := by
  cases v with
  | record fields => rw [blanked_record]; rfl
  | _ => rfl

@[simp] theorem number?_blanked : v.blanked.number? = v.number? := by
  cases v <;> rfl

@[simp] theorem bool?_blanked : v.blanked.bool? = v.bool? := by
  cases v <;> rfl

@[simp] theorem string?_blanked : v.blanked.string? = v.string?.map fun _ => "" := by
  cases v <;> rfl

@[simp] theorem numberD_blanked (default : Number) :
    v.blanked.numberD default = v.numberD default := by
  rw [numberD, numberD, number?_blanked]

@[simp] theorem boolD_blanked (default : Bool) : v.blanked.boolD default = v.boolD default := by
  rw [boolD, boolD, bool?_blanked]

@[simp] theorem stringD_blanked : v.blanked.stringD "" = "" := by
  rw [stringD, string?_blanked]
  cases v.string? <;> rfl

@[simp] theorem figureD_blanked (default : Number) :
    v.blanked.figureD key default = v.figureD key default := by
  simp [figureD]

@[simp] theorem figure_blanked : v.blanked.figure key = v.figure key := by
  simp [figure]

@[simp] theorem counterD_blanked (default : Number) :
    v.blanked.counterD key default = v.counterD key default := by
  simp [counterD]

@[simp] theorem switch_blanked : v.blanked.switch key = v.switch key := by
  simp [switch]

end Value

/-! ### Checking -/

namespace Schema

mutual

theorem normalized_blanked : ∀ (s : Schema) (v : Value),
    normalized s v.blanked = (normalized s v).blanked
  | .number rules, v => by cases v <;> rfl
  | .text nonempty, v => by cases v <;> rfl
  | .boolean, v => by cases v <;> rfl
  | .list item, v => by
    cases v with
    | list items =>
      rw [Value.blanked_list, normalized, normalized, Value.blanked_list, List.map_map,
        List.map_map]
      refine congrArg Value.list (List.map_congr_left fun w _ => ?_)
      exact normalized_blanked item w
    | _ => rfl
  | .digitKeyed message entry, v => by
    cases v with
    | record fields =>
      rw [Value.blanked_record, normalized, normalized, Value.blanked_record, List.map_map,
        List.map_map]
      refine congrArg Value.record (List.map_congr_left fun f _ => ?_)
      exact congrArg (Prod.mk f.1) (normalized_blanked entry f.2)
    | _ => rfl
  | .record fs closed, v => by
    cases v with
    | record fields =>
      have hfields := normalizedFields_blanked fs (.record fields)
      rw [Value.blanked_record] at hfields ⊢
      rw [normalized, normalized, Value.blanked_record, hfields]
    | _ => rfl

theorem normalizedFields_blanked : ∀ (fs : Fields) (v : Value),
    normalizedFields fs v.blanked = (normalizedFields fs v).map fun f => (f.1, f.2.blanked)
  | .nil, v => rfl
  | .cons name presence schema rest, v => by
    have hrest := normalizedFields_blanked rest v
    have hhead := normalized_blanked schema (v.field name)
    rw [normalizedFields, normalizedFields]
    simp only [Value.field_blanked, Value.isMissing_blanked]
    by_cases habsent : (v.field name).isMissing = true
    · rw [if_pos habsent, if_pos habsent, hrest]
      cases presence <;> rfl
    · rw [if_neg habsent, if_neg habsent, hrest, hhead]
      rfl

end

end Schema

/-! ### Describing -/

section Parts

variable (v : Value)

@[simp] theorem Mapping.ofValue_blanked : Mapping.ofValue v.blanked = Mapping.ofValue v := by
  simp [Mapping.ofValue]

@[simp] theorem MapEntry.ofValue_blanked : MapEntry.ofValue v.blanked = MapEntry.ofValue v := by
  simp [MapEntry.ofValue, Function.comp_def]

@[simp] theorem JobQueue.ofValue_blanked : JobQueue.ofValue v.blanked = JobQueue.ofValue v := by
  simp [JobQueue.ofValue]

@[simp] theorem BufferClass.ofValue_blanked :
    BufferClass.ofValue v.blanked = BufferClass.ofValue v := by
  simp [BufferClass.ofValue]

@[simp] theorem DmaPool.ofValue_blanked : DmaPool.ofValue v.blanked = DmaPool.ofValue v := by
  have hentries : (v.blanked.field "classes").fields?.getD [] =
      ((v.field "classes").fields?.getD []).map fun f => (f.1, f.2.blanked) := by
    rw [Value.field_blanked, Value.fields?_blanked]
    cases (v.field "classes").fields? <;> rfl
  rw [DmaPool.ofValue, DmaPool.ofValue, hentries, List.foldl_map]
  simp [Function.comp_def]

@[simp] theorem Client.ofValue_blanked : Client.ofValue v.blanked = Client.ofValue v := by
  simp [Client.ofValue]

@[simp] theorem NamedObject.ofValue_blanked :
    NamedObject.ofValue v.blanked = NamedObject.ofValue v := by
  simp [NamedObject.ofValue]

@[simp] theorem MemoryStatus.ofValue_blanked :
    MemoryStatus.ofValue v.blanked = MemoryStatus.ofValue v := by
  simp [MemoryStatus.ofValue]

@[simp] theorem MemoryControl.ofValue_blanked :
    MemoryControl.ofValue v.blanked = MemoryControl.ofValue v := by
  rw [MemoryControl.ofValue, MemoryControl.ofValue, Value.present?_blanked]
  cases v.present? with
  | none => rfl
  | some w => simp [Function.comp_def]

@[simp] theorem VirtualArea.ofValue_blanked :
    VirtualArea.ofValue v.blanked = VirtualArea.ofValue v := by
  simp [VirtualArea.ofValue]

@[simp] theorem AreaEntry.ofValue_blanked : AreaEntry.ofValue v.blanked = AreaEntry.ofValue v := by
  simp [AreaEntry.ofValue, Function.comp_def]

@[simp] theorem HighMemory.ofValue_blanked :
    HighMemory.ofValue v.blanked = HighMemory.ofValue v := by
  rw [HighMemory.ofValue, HighMemory.ofValue, Value.present?_blanked]
  cases v.present? with
  | none => rfl
  | some w => simp

end Parts

/-- A memory area without its name. -/
def MemoryArea.blanked (a : MemoryArea) : MemoryArea := { a with name := "" }

/-- A device with every text in it made empty. -/
def Device.blanked (d : Device) : Device :=
  { d with
    index := d.index.blanked
    driverName := d.driverName.blanked
    busId := d.busId.blanked
    unique := d.unique.map fun _ => ""
    memoryTracker := { d.memoryTracker with areas := d.memoryTracker.areas.map (·.blanked) } }

/-- Of a device without texts nothing but the texts is missing. -/
theorem Device.ofValue_blanked (v : Value) :
    Device.ofValue v.blanked = (Device.ofValue v).blanked := by
  have harea (w : Value) : MemoryArea.ofValue w.blanked = (MemoryArea.ofValue w).blanked := by
    simp [MemoryArea.ofValue, MemoryArea.blanked]
  simp [Device.ofValue, Device.blanked, MemoryTracker.ofValue, ObjectStats.ofValue,
    FenceManager.ofValue, BufferManager.ofValue, Patience.ofValue, harea, List.foldl_map,
    Function.comp_def]

/-- Documents that differ in texts alone are loaded as devices that do. -/
theorem Snapshot.blanked_of_load {v w : Value} {source source' : String} {d e : Device}
    (same : v.blanked = w.blanked) (first : load v source = .ok d)
    (second : load w source' = .ok e) : d.blanked = e.blanked := by
  obtain ⟨-, rfl⟩ := load_eq_ok.mp first
  obtain ⟨-, rfl⟩ := load_eq_ok.mp second
  rw [← Device.ofValue_blanked, ← Device.ofValue_blanked, ← Schema.normalized_blanked,
    ← Schema.normalized_blanked, same]

end DeviceReports
