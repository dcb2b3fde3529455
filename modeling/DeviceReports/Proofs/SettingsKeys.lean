import DeviceReports.Proofs.AcceptedSettings

/-!
# The keys of a settings document

A settings document conforms when it has no other keys and each key that it gives passes a check
of its own. What the checks ask is said here in whole numbers. The defaults that a check fills
in are those that the settings fall back on, so the settings can be read off the document as it
was given.
-/

set_option autoImplicit false

namespace DeviceReports

open Schema

/-- Whether a key is left out, or holds a whole number that is good. -/
def Value.WholeAt (v : Value) (key : String) (good : Nat → Prop) : Prop :=
  v.field key = .missing ∨ ∃ n, v.field key = .number (.ofCount n) ∧ good n

namespace Settings

variable {machine : String} {v document : Value} {s : Settings}

/-- A settings document whose given keys are known and pass their own checks. -/
structure KeysChecked (v : Value) : Prop where
  known : ∃ fields, v = .record fields ∧ ∀ f ∈ fields, f.1 ∈ schema.fields.names
  pageSize : v.WholeAt "pageSize" fun n => 256 ≤ n ∧ (Number.ofCount n).hasSingleBit = true
  sizeLimit : v.WholeAt "sizeLimit" (1 ≤ ·)
  bufferCapacity : v.WholeAt "bufferCapacity" (1 ≤ ·)
  maxOrder : v.WholeAt "maxOrder" (· ≤ 31)
  bufferListWrap : v.WholeAt "bufferListWrap" (1 ≤ ·)
  debug : v.field "debug" = .missing ∨ ∃ b, v.field "debug" = .bool b
  architecture : v.field "architecture" = .missing ∨
    ∃ text, v.field "architecture" = .string text ∧ text ≠ ""

/-- A key passes a check on numbers that only good whole numbers pass. -/
theorem wholeAt_iff {rules : List NumberRule} {good : Nat → Prop}
    (checks : ∀ x, (∀ r ∈ rules, r.holds x = true) ↔ ∃ n, x = .ofCount n ∧ good n) (key : String) :
    (v.field key = .missing ∨ Conforms (.number rules) (v.field key)) ↔ v.WholeAt key good := by
  refine or_congr_right ?_
  simp only [Conforms]
  constructor
  · rintro ⟨x, hx, -, hrules⟩
    obtain ⟨n, rfl, hgood⟩ := (checks x).mp hrules
    exact ⟨n, hx, hgood⟩
  · rintro ⟨n, hn, hgood⟩
    exact ⟨.ofCount n, hn, by simp [Number.ofCount], (checks _).mpr ⟨n, rfl, hgood⟩⟩

theorem page_checks (message : String) (x : Number) :
    (∀ r ∈ [NumberRule.integer, .atLeast 256, .powerOfTwo message], r.holds x = true) ↔
      ∃ n, x = .ofCount n ∧ 256 ≤ n ∧ (Number.ofCount n).hasSingleBit = true := by
  have hbound : Number.ofNat 256 = .ofCount 256 := Number.ofNat_eq_ofCount (by decide)
  simp only [List.forall_mem_cons, NumberRule.holds, decide_eq_true_eq, hbound]
  constructor
  · rintro ⟨hinteger, hleast, hbit, -⟩
    obtain ⟨n, hn, rfl⟩ := Number.exists_ofCount hinteger hleast
    exact ⟨n, rfl, hn, hbit⟩
  · rintro ⟨n, rfl, hn, hbit⟩
    exact ⟨by simp [Number.isInteger], Number.ofCount_le_ofCount.mpr hn, hbit, by simp⟩

theorem positive_checks (x : Number) :
    (∀ r ∈ [NumberRule.integer, .positive], r.holds x = true) ↔ ∃ n, x = .ofCount n ∧ 1 ≤ n := by
  constructor
  · intro hrules
    obtain ⟨n, hn, rfl⟩ := limit_of_rules hrules
    exact ⟨n, rfl, hn⟩
  · rintro ⟨n, rfl, hn⟩
    have hzero : (0 : Number) = .ofCount 0 := Number.ofNat_eq_ofCount (by decide)
    simp only [List.forall_mem_cons, NumberRule.holds, decide_eq_true_eq, hzero,
      Number.ofCount_lt_ofCount]
    exact ⟨by simp [Number.isInteger], hn, by simp⟩

theorem order_checks (x : Number) :
    (∀ r ∈ [NumberRule.integer, .atLeast 0, .atMost 31 none], r.holds x = true) ↔
      ∃ n, x = .ofCount n ∧ n ≤ 31 := by
  have hleast : Number.ofNat 0 = .ofCount 0 := Number.ofNat_eq_ofCount (by decide)
  have hmost : Number.ofNat 31 = .ofCount 31 := Number.ofNat_eq_ofCount (by decide)
  simp only [List.forall_mem_cons, NumberRule.holds, decide_eq_true_eq, hleast, hmost]
  constructor
  · rintro ⟨hinteger, hnonneg, hbound, -⟩
    obtain ⟨n, -, rfl⟩ := Number.exists_ofCount hinteger hnonneg
    exact ⟨n, rfl, Number.ofCount_le_ofCount.mp hbound⟩
  · rintro ⟨n, rfl, hn⟩
    exact ⟨by simp [Number.isInteger], Number.ofCount_le_ofCount.mpr (Nat.zero_le n),
      Number.ofCount_le_ofCount.mpr hn, by simp⟩

theorem extraKeys_eq_nil (fs : Fields) (fields : List (String × Value)) :
    extraKeys fs fields = [] ↔ ∀ f ∈ fields, f.1 ∈ fs.names := by
  simp [extraKeys, List.filter_eq_nil_iff]

theorem keysChecked_iff : KeysChecked v ↔ Conforms schema v := by
  have hpage := wholeAt_iff (v := v) (page_checks "pageSize must be a power of two") "pageSize"
  have hlimit := wholeAt_iff (v := v) positive_checks "sizeLimit"
  have hcapacity := wholeAt_iff (v := v) positive_checks "bufferCapacity"
  have horder := wholeAt_iff (v := v) order_checks "maxOrder"
  have hwrap := wholeAt_iff (v := v) positive_checks "bufferListWrap"
  have hdebug : Conforms .boolean (v.field "debug") ↔ ∃ b, v.field "debug" = .bool b := by
    rw [Conforms]
  have harchitecture : Conforms (.text true) (v.field "architecture") ↔
      ∃ text, v.field "architecture" = .string text ∧ text ≠ "" := by
    simp [Conforms]
  have hfields : FieldsConform schema.fields v ↔
      v.WholeAt "pageSize" (fun n => 256 ≤ n ∧ (Number.ofCount n).hasSingleBit = true) ∧
      v.WholeAt "sizeLimit" (1 ≤ ·) ∧ v.WholeAt "bufferCapacity" (1 ≤ ·) ∧
      v.WholeAt "maxOrder" (· ≤ 31) ∧ v.WholeAt "bufferListWrap" (1 ≤ ·) ∧
      (v.field "debug" = .missing ∨ ∃ b, v.field "debug" = .bool b) ∧
      (v.field "architecture" = .missing ∨
        ∃ text, v.field "architecture" = .string text ∧ text ≠ "") := by
    simp only [schema, fields, Fields.declare, List.foldr, FieldsConform, ne_eq, reduceCtorEq,
      not_false_eq_true, and_true, hpage, hlimit, hcapacity, horder, hwrap, hdebug, harchitecture]
  constructor
  · intro checked
    obtain ⟨entries, rfl, hknown⟩ := checked.known
    exact ⟨entries, rfl, hfields.mpr ⟨checked.pageSize, checked.sizeLimit, checked.bufferCapacity,
      checked.maxOrder, checked.bufferListWrap, checked.debug, checked.architecture⟩,
      fun _ => (extraKeys_eq_nil _ _).mpr hknown⟩
  · rintro ⟨entries, rfl, hconform, hclosed⟩
    obtain ⟨page, limit, capacity, order, wrap, debug, architecture⟩ := hfields.mp hconform
    exact ⟨⟨entries, rfl, (extraKeys_eq_nil _ _).mp (hclosed rfl)⟩, page, limit, capacity, order,
      wrap, debug, architecture⟩

/-- What is read off a key is the same before and after the check, where the check fills in what
an absent key is read as. -/
theorem read_normalized {α : Type} (read : Value → α) (conforms : Conforms schema v) (key : String)
    {presence : Presence} {part : Schema}
    (declared : schema.fields.find? key = some (presence, part))
    (plain : ∀ w, normalized part w = w) (same : read (substitute presence) = read .missing) :
    read ((normalized schema v).field key) = read (v.field key) := by
  rcases field_normalized names_nodup conforms key declared with ⟨habsent, -, hfield⟩ | ⟨-, hfield⟩
  · rw [hfield, habsent, same]
  · rw [hfield, plain]

/-- The settings of a checked document can be read off the document itself. -/
theorem ofValue_normalized (conforms : Conforms schema v) :
    ofValue machine (normalized schema v) = ofValue machine v := by
  have hnumber (key : String) (default : Number) {presence : Presence} {rules : List NumberRule}
      (declared : schema.fields.find? key = some (presence, .number rules))
      (same : (substitute presence).numberD default = default) :
      ((normalized schema v).field key).numberD default = (v.field key).numberD default :=
    read_normalized (·.numberD default) conforms key declared (normalized_number rules) same
  have hpage := hnumber "pageSize" defaultPageSize rfl rfl
  have hlimit := hnumber "sizeLimit"
    ((v.field "pageSize").numberD defaultPageSize - margin) rfl rfl
  have hcapacity := hnumber "bufferCapacity" ((v.field "pageSize").numberD defaultPageSize) rfl rfl
  have horder := hnumber "maxOrder" Device.highestOrder rfl rfl
  have hwrap := hnumber "bufferListWrap" defaultListWrap rfl rfl
  have hdebug := read_normalized (·.boolD false) conforms "debug" rfl normalized_boolean rfl
  have harchitecture := read_normalized (·.stringD machine) conforms "architecture" rfl
    (normalized_text true) rfl
  simp only [ofValue, hpage, hlimit, hcapacity, horder, hwrap, hdebug, harchitecture]

/-- Documents are accepted when their keys pass the checks and the margin is kept. -/
theorem resolve_ok_iff : resolve machine document = .ok s ↔
    KeysChecked (given document) ∧ s = ofValue machine (given document) ∧
      ¬ s.bufferCapacity - s.sizeLimit < margin := by
  rw [resolve_ok, keysChecked_iff]
  refine and_congr_right fun conforms => ?_
  rw [ofValue_normalized conforms]

end Settings

end DeviceReports
