import DeviceReports.Device.Snapshot
import DeviceReports.Proofs.Formatting
import DeviceReports.Proofs.Grammar

/-!
# Figures of checked documents

Where a schema asks for an integer at every number, and every default is one, a checked
document holds no other numbers. A snapshot's schema is of that kind, so no figure of a loaded
device is infinite, and its reports can all be formatted. A figure that is needed may still be
absent where a whole entry is; it then is no number, which every column can show.
-/

set_option autoImplicit false

namespace DeviceReports

/-- A document whose numbers are all integers. -/
inductive Value.Whole : Value → Prop where
  | missing : Whole .missing
  | null : Whole .null
  | bool (b : Bool) : Whole (.bool b)
  | string (s : String) : Whole (.string s)
  | number {x : Number} (integer : x.isInteger = true) : Whole (.number x)
  | list {items : List Value} (each : ∀ v ∈ items, Whole v) : Whole (.list items)
  | record {fields : List (String × Value)} (each : ∀ f ∈ fields, Whole f.2) :
    Whole (.record fields)

namespace Schema

/-- Whether what stands in for an absent field holds no number but integers. -/
def wholeDefault : Presence → Bool
  | .default n => n.isInteger
  | _ => true

mutual

/-- Whether a schema asks for an integer at every number. -/
def integral : Schema → Bool
  | .number rules => decide (.integer ∈ rules)
  | .text _ => true
  | .boolean => true
  | .list item => integral item
  | .digitKeyed _ entry => integral entry
  | .record fs _ => fieldsIntegral fs

def fieldsIntegral : Fields → Bool
  | .nil => true
  | .cons _ presence schema rest => wholeDefault presence && integral schema && fieldsIntegral rest

end

theorem substitute_whole {presence : Presence} (h : wholeDefault presence = true) :
    (substitute presence).Whole := by
  cases presence with
  | required => exact .missing
  | optional => exact .missing
  | default n => exact .number h
  | defaultFlag b => exact .bool b

mutual

theorem normalized_whole : ∀ {s : Schema}, integral s = true →
    ∀ {v : Value}, Conforms s v → (normalized s v).Whole
  | .number rules, integral, v, conforms => by
    obtain ⟨x, rfl, -, hrules⟩ := conforms
    have hinteger := hrules .integer (of_decide_eq_true integral)
    simpa [normalized] using Value.Whole.number hinteger
  | .text nonempty, _, v, conforms => by
    obtain ⟨s, rfl, -⟩ := conforms
    simpa [normalized] using Value.Whole.string s
  | .boolean, _, v, conforms => by
    obtain ⟨b, rfl⟩ := conforms
    simpa [normalized] using Value.Whole.bool b
  | .list item, integral, v, conforms => by
    obtain ⟨items, rfl, hitems⟩ := conforms
    rw [normalized]
    refine .list fun w hw => ?_
    obtain ⟨i, hi, rfl⟩ := List.mem_map.mp hw
    exact normalized_whole (s := item) integral (hitems i hi)
  | .digitKeyed message entry, integral, v, conforms => by
    obtain ⟨fields, rfl, hfields⟩ := conforms
    rw [normalized]
    refine .record fun w hw => ?_
    obtain ⟨f, hf, rfl⟩ := List.mem_map.mp hw
    exact normalized_whole (s := entry) integral (hfields f hf).2
  | .record fs closed, integral, v, conforms => by
    obtain ⟨fields, rfl, hfields, -⟩ := conforms
    rw [normalized]
    exact .record (normalizedFields_whole integral hfields)

theorem normalizedFields_whole : ∀ {fs : Fields}, fieldsIntegral fs = true →
    ∀ {v : Value}, FieldsConform fs v → ∀ f ∈ normalizedFields fs v, f.2.Whole
  | .nil, _, v, _, f, hf => by cases hf
  | .cons name presence schema rest, integral, v, conforms, f, hf => by
    obtain ⟨hhead, hothers⟩ : _ ∧ FieldsConform rest v := conforms
    rw [fieldsIntegral, Bool.and_eq_true, Bool.and_eq_true] at integral
    obtain ⟨⟨hdefault, hschema⟩, hfields⟩ := integral
    have hrest := normalizedFields_whole hfields hothers
    rw [normalizedFields] at hf
    split at hf
    · split at hf
      · exact hrest f hf
      · rcases List.mem_cons.mp hf with rfl | hf
        · exact substitute_whole hdefault
        · exact hrest f hf
    · next hpresent =>
      rcases List.mem_cons.mp hf with rfl | hf
      · have hgood := hhead.resolve_left fun h => hpresent (by rw [h.1]; rfl)
        exact normalized_whole hschema hgood
      · exact hrest f hf

end

end Schema

/-! ### Figures -/

namespace Value.Whole

variable {v : Value}

theorem field (h : v.Whole) (key : String) : (v.field key).Whole := by
  cases h with
  | record each =>
    rw [Value.field, Value.lookup]
    split
    · next hfind => exact each _ (List.mem_of_find?_eq_some hfind)
    · exact .missing
  | _ => exact .missing

theorem items (h : v.Whole) : ∀ w ∈ v.items, w.Whole := by
  cases h with
  | list each => exact each
  | _ => exact fun w hw => by cases hw

theorem of_present? (h : v.Whole) {w : Value} (present : v.present? = some w) : w.Whole := by
  have hsame : v = w := by
    cases v <;> simp_all [present?]
  exact hsame ▸ h

/-- A figure of a whole document is negative infinity only where its default is. -/
theorem figureD_ne (h : v.Whole) (key : String) {default : Number}
    (sound : default ≠ .infinite true) : v.figureD key default ≠ .infinite true := by
  have hfield := h.field key
  rw [figureD]
  generalize v.field key = w at hfield
  cases hfield with
  | number integer =>
    rintro rfl
    cases integer
  | _ => exact sound

theorem figure_ne (h : v.Whole) (key : String) : v.figure key ≠ .infinite true :=
  h.figureD_ne key (by simp)

end Value.Whole

theorem Device.formattable_ofValue {v : Value} (h : v.Whole) : (Device.ofValue v).Formattable where
  tokens e he := by
    obtain ⟨w, hw, rfl⟩ := List.mem_map.mp he
    exact ((h.field "maps").items w hw).figure_ne "userToken"
  mappings e he m hm := by
    obtain ⟨w, hw, rfl⟩ := List.mem_map.mp he
    obtain ⟨x, hx, rfl⟩ := Option.map_eq_some_iff.mp hm
    have hwhole := (((h.field "maps").items w hw).field "map").of_present? hx
    exact ⟨hwhole.figure_ne "offset", hwhole.figure_ne "size", hwhole.figure_ne "flags"⟩
  queues q hq := by
    obtain ⟨w, hw, rfl⟩ := List.mem_map.mp hq
    exact ((h.field "queues").items w hw).figureD_ne "flags" (by decide)
  areas e he a ha := by
    obtain ⟨w, hw, rfl⟩ := List.mem_map.mp he
    obtain ⟨x, hx, rfl⟩ := Option.map_eq_some_iff.mp ha
    have hwhole := (((h.field "vmas").items w hw).field "vma").of_present? hx
    exact ⟨hwhole.figure_ne "start", hwhole.figure_ne "end", hwhole.figure_ne "pageOffset"⟩
  highMemory := by
    change (HighMemory.ofValue (v.field "highMemory")).virtual ≠ _ ∧
      (HighMemory.ofValue (v.field "highMemory")).physical ≠ _
    rw [HighMemory.ofValue]
    split
    · exact ⟨by decide, by decide⟩
    · next hx =>
      have hwhole := (h.field "highMemory").of_present? hx
      exact ⟨hwhole.figure_ne "virtual", hwhole.figure_ne "physical"⟩

namespace Snapshot

theorem schema_integral : schema.integral = true := by decide

/-- A document is loaded exactly when it conforms, and then as it is normalized. -/
theorem load_eq_ok {document : Value} {source : String} {d : Device} :
    load document source = .ok d ↔
      Schema.Conforms schema document ∧ d = Device.ofValue (Schema.normalized schema document) := by
  rw [load]
  rcases hvalid : Schema.validate schema document with found | v
  · have hnone : ¬ Schema.Conforms schema document := fun hconforms => by
      rw [Schema.validate_eq_ok.mpr ⟨hconforms, rfl⟩] at hvalid
      cases hvalid
    exact ⟨nofun, fun h => absurd h.1 hnone⟩
  · obtain ⟨hconforms, rfl⟩ := Schema.validate_eq_ok.mp hvalid
    constructor
    · intro h
      exact ⟨hconforms, (Except.ok.inj h).symm⟩
    · rintro ⟨-, rfl⟩
      rfl

/-- Every report of a loaded device can be formatted. -/
theorem formattable_of_load {document : Value} {source : String} {d : Device}
    (loaded : load document source = .ok d) : d.Formattable := by
  obtain ⟨hconforms, rfl⟩ := load_eq_ok.mp loaded
  exact Device.formattable_ofValue (Schema.normalized_whole schema_integral hconforms)

end Snapshot

end DeviceReports
