import DeviceReports.Proofs.SettingsKeys

/-!
# Resolved settings

Settings that come out of a document are bounded, keep what the document gave, and stand for
themselves: written out and resolved again they are the same. Where every given key passes its
own check, the one thing left that a document may be refused for is the margin, and it is so
refused exactly when the whole numbers say so. Numbers beyond 2^53 - 1 are left aside, for a
limit that is derived from one may be rounded.
-/

set_option autoImplicit false

namespace DeviceReports

open Schema

namespace Number

/-- A number from -(2^53 - 1) up to 2^53 - 1. -/
def InSafeRange (x : Number) : Prop :=
  -ofCount (exactBound - 1) ≤ x ∧ x ≤ ofCount (exactBound - 1)

theorem InSafeRange.lt {n : Nat} (safe : (ofCount n).InSafeRange) : n < exactBound := by
  have hmost : n ≤ exactBound - 1 := ofCount_le_ofCount.mp safe.2
  have hpos : 0 < exactBound := by decide
  omega

end Number

namespace Value

variable {v : Value} {key : String} {good : Nat → Prop} {derived : Nat}

/-- A document whose fields hold no number beyond the safe range. -/
def Safe (v : Value) : Prop := ∀ key x, v.field key = .number x → x.InSafeRange

theorem safe_record {fields : List (String × Value)}
    (each : ∀ f ∈ fields, ∀ x, f.2 = .number x → x.InSafeRange) : (Value.record fields).Safe := by
  intro key x hx
  rw [field, lookup] at hx
  split at hx
  · next f hf => exact each f (List.mem_of_find?_eq_some hf) x hx
  · cases hx

/-- The whole number that a key gives, or else the derived one. -/
def countD (v : Value) (key : String) (derived : Nat) : Nat :=
  ((v.field key).number?.bind Number.count?).getD derived

theorem countD_of_missing (absent : v.field key = .missing) (derived : Nat) :
    v.countD key derived = derived := by
  rw [countD, absent]
  rfl

theorem countD_of_number {n : Nat} (there : v.field key = .number (.ofCount n))
    (safe : n < Number.exactBound) (derived : Nat) : v.countD key derived = n := by
  rw [countD, there]
  change (Number.count? (.ofCount n)).getD derived = n
  rw [Number.count?_ofCount safe]
  rfl

theorem numberD_eq_countD (whole : v.WholeAt key good) (safe : v.Safe) (derived : Nat) :
    (v.field key).numberD (.ofCount derived) = .ofCount (v.countD key derived) := by
  rcases whole with habsent | ⟨n, hn, -⟩
  · rw [countD_of_missing habsent, habsent]
    rfl
  · rw [countD_of_number hn (safe key _ hn).lt, hn]
    rfl

theorem good_countD (whole : v.WholeAt key good) (safe : v.Safe) (fallback : good derived) :
    good (v.countD key derived) := by
  rcases whole with habsent | ⟨n, hn, hgood⟩
  · rw [countD_of_missing habsent]
    exact fallback
  · rw [countD_of_number hn (safe key _ hn).lt]
    exact hgood

theorem countD_lt (whole : v.WholeAt key good) (safe : v.Safe)
    (fallback : derived < Number.exactBound) : v.countD key derived < Number.exactBound := by
  rcases whole with habsent | ⟨n, hn, -⟩
  · rw [countD_of_missing habsent]
    exact fallback
  · rw [countD_of_number hn (safe key _ hn).lt]
    exact (safe key _ hn).lt

/-- A whole number that is given is what is read off its key. -/
theorem number_numberD (whole : v.WholeAt key good) (there : v.field key ≠ .missing)
    (default : Number) : .number ((v.field key).numberD default) = v.field key := by
  rcases whole with habsent | ⟨n, hn, -⟩
  · exact absurd habsent there
  · rw [hn]
    rfl

end Value

namespace Settings

open Number (ofCount)

variable {machine : String} {v document : Value} {s : Settings}

/-- The page size that a document gives, or the default one. -/
def pageOf (v : Value) : Nat := v.countD "pageSize" defaultPageSize

/-- The size limit that a document gives, or the one that lies the margin below its page size. -/
def limitOf (v : Value) : Nat := v.countD "sizeLimit" (pageOf v - margin)

/-- The buffer capacity that a document gives, or its page size. -/
def capacityOf (v : Value) : Nat := v.countD "bufferCapacity" (pageOf v)

/-- Settings of whole numbers within their bounds, and of some architecture. -/
structure Bounded (s : Settings) : Prop where
  pageSize : ∃ n, s.pageSize = ofCount n ∧ 256 ≤ n
  limits : ∃ limit capacity, s.sizeLimit = ofCount limit ∧ s.bufferCapacity = ofCount capacity ∧
    1 ≤ limit ∧ limit + margin ≤ capacity
  maxOrder : ∃ n, s.maxOrder = ofCount n ∧ n ≤ 31
  bufferListWrap : ∃ n, s.bufferListWrap = ofCount n ∧ 1 ≤ n
  architecture : s.architecture ≠ ""

/-- The document that gives every key as the settings have it. -/
def toDocument (s : Settings) : Value :=
  .record [("pageSize", .number s.pageSize), ("sizeLimit", .number s.sizeLimit),
    ("bufferCapacity", .number s.bufferCapacity), ("maxOrder", .number s.maxOrder),
    ("bufferListWrap", .number s.bufferListWrap), ("debug", .bool s.debug),
    ("architecture", .string s.architecture)]

theorem ofValue_toDocument (machine : String) (s : Settings) :
    ofValue machine s.toDocument = s := rfl

/-! ### What a checked document gives -/

theorem pageOf_checked (checked : KeysChecked v) (safe : v.Safe) :
    256 ≤ pageOf v ∧ (ofCount (pageOf v)).hasSingleBit = true :=
  Value.good_countD checked.pageSize safe ⟨by decide, by decide +kernel⟩

theorem pageSize_ofValue (machine : String) (checked : KeysChecked v) (safe : v.Safe) :
    (ofValue machine v).pageSize = ofCount (pageOf v) := by
  rw [pageOf, ← Value.numberD_eq_countD checked.pageSize safe,
    ← Number.ofNat_eq_ofCount (n := defaultPageSize) (by decide)]
  rfl

theorem sizeLimit_ofValue (machine : String) (checked : KeysChecked v) (safe : v.Safe) :
    (ofValue machine v).sizeLimit = ofCount (limitOf v) := by
  have hleast := (pageOf_checked checked safe).1
  have hsafe : pageOf v < Number.exactBound :=
    Value.countD_lt checked.pageSize safe (by decide)
  have hderived :
      (ofValue machine v).pageSize - Number.ofNat margin = ofCount (pageOf v - margin) := by
    rw [pageSize_ofValue machine checked safe, Number.ofNat_eq_ofCount (by decide),
      Number.ofCount_sub_ofCount (le_trans (by decide) hleast) hsafe.le]
  rw [limitOf, ← Value.numberD_eq_countD checked.sizeLimit safe, ← hderived]
  rfl

theorem bufferCapacity_ofValue (machine : String) (checked : KeysChecked v) (safe : v.Safe) :
    (ofValue machine v).bufferCapacity = ofCount (capacityOf v) := by
  rw [capacityOf, ← Value.numberD_eq_countD checked.bufferCapacity safe,
    ← pageSize_ofValue machine checked safe]
  rfl

theorem maxOrder_ofValue (checked : KeysChecked v) (safe : v.Safe) :
    ∃ n, (ofValue machine v).maxOrder = ofCount n ∧ n ≤ 31 := by
  refine ⟨v.countD "maxOrder" Device.highestOrder, ?_,
    Value.good_countD checked.maxOrder safe (by decide)⟩
  rw [← Value.numberD_eq_countD checked.maxOrder safe, ← Number.ofNat_eq_ofCount (by decide)]
  rfl

theorem bufferListWrap_ofValue (checked : KeysChecked v) (safe : v.Safe) :
    ∃ n, (ofValue machine v).bufferListWrap = ofCount n ∧ 1 ≤ n := by
  refine ⟨v.countD "bufferListWrap" defaultListWrap, ?_,
    Value.good_countD checked.bufferListWrap safe (by decide)⟩
  rw [← Value.numberD_eq_countD checked.bufferListWrap safe, ← Number.ofNat_eq_ofCount (by decide)]
  rfl

theorem architecture_ofValue (known : machine ≠ "") (checked : KeysChecked v) :
    (ofValue machine v).architecture ≠ "" := by
  rcases checked.architecture with habsent | ⟨text, htext, hnonempty⟩
  · change (v.field "architecture").stringD machine ≠ ""
    rw [habsent]
    exact known
  · change (v.field "architecture").stringD machine ≠ ""
    rw [htext]
    exact hnonempty

/-- The margin is missed as whole numbers when it is missed as figures. -/
theorem margin_iff (checked : KeysChecked v) (safe : v.Safe) :
    (ofValue machine v).bufferCapacity - (ofValue machine v).sizeLimit < margin ↔
      capacityOf v < limitOf v + margin := by
  rw [bufferCapacity_ofValue machine checked safe, sizeLimit_ofValue machine checked safe,
    Number.ofNat_eq_ofCount (by decide), Number.ofCount_sub_lt_iff (by decide) (by decide)]

theorem bounded_ofValue (known : machine ≠ "") (checked : KeysChecked v) (safe : v.Safe)
    (kept : ¬ (ofValue machine v).bufferCapacity - (ofValue machine v).sizeLimit < margin) :
    (ofValue machine v).Bounded where
  pageSize := ⟨_, pageSize_ofValue machine checked safe, (pageOf_checked checked safe).1⟩
  limits := by
    have hpage := (pageOf_checked checked safe).1
    have hderived : 1 ≤ pageOf v - margin := by
      unfold margin
      omega
    have hroom : ¬ capacityOf v < limitOf v + margin := mt (margin_iff checked safe).mpr kept
    exact ⟨_, _, sizeLimit_ofValue machine checked safe,
      bufferCapacity_ofValue machine checked safe,
      Value.good_countD checked.sizeLimit safe hderived, by omega⟩
  maxOrder := maxOrder_ofValue checked safe
  bufferListWrap := bufferListWrap_ofValue checked safe
  architecture := architecture_ofValue known checked

/-! ### What the settings give back -/

theorem mem_names_of_field (checked : KeysChecked v) {key : String}
    (there : v.field key ≠ .missing) : key ∈ schema.fields.names := by
  obtain ⟨fields, rfl, hknown⟩ := checked.known
  rcases hfind : fields.find? (·.1 == key) with _ | f
  · exact absurd (by rw [Value.field, Value.lookup, hfind]) there
  · have hname : f.1 = key := by simpa using List.find?_some hfind
    exact hname ▸ hknown f (List.mem_of_find?_eq_some hfind)

/-- Every key that a checked document gives stands unchanged in its settings. -/
theorem field_toDocument (checked : KeysChecked v) {key : String}
    (there : v.field key ≠ .missing) : (ofValue machine v).toDocument.field key = v.field key := by
  have hkey : key ∈ ["pageSize", "sizeLimit", "bufferCapacity", "maxOrder", "bufferListWrap",
    "debug", "architecture"] := mem_names_of_field checked there
  simp only [List.mem_cons, List.not_mem_nil, or_false] at hkey
  rcases hkey with rfl | rfl | rfl | rfl | rfl | rfl | rfl
  · exact Value.number_numberD checked.pageSize there _
  · exact Value.number_numberD checked.sizeLimit there _
  · exact Value.number_numberD checked.bufferCapacity there _
  · exact Value.number_numberD checked.maxOrder there _
  · exact Value.number_numberD checked.bufferListWrap there _
  · rcases checked.debug with habsent | ⟨b, hb⟩
    · exact absurd habsent there
    · change Value.bool ((v.field "debug").boolD false) = _
      rw [hb]
      rfl
  · rcases checked.architecture with habsent | ⟨text, htext, -⟩
    · exact absurd habsent there
    · change Value.string ((v.field "architecture").stringD machine) = _
      rw [htext]
      rfl

theorem keysChecked_toDocument (checked : KeysChecked v) (safe : v.Safe)
    (bounded : (ofValue machine v).Bounded) : KeysChecked (ofValue machine v).toDocument where
  known := ⟨_, rfl, by simp only [List.forall_mem_cons]; decide +kernel⟩
  pageSize := Or.inr ⟨pageOf v, congrArg Value.number (pageSize_ofValue machine checked safe),
    pageOf_checked checked safe⟩
  sizeLimit := by
    obtain ⟨limit, capacity, hlimit, -, hpos, -⟩ := bounded.limits
    exact Or.inr ⟨limit, congrArg Value.number hlimit, hpos⟩
  bufferCapacity := by
    obtain ⟨limit, capacity, -, hcapacity, hpos, hroom⟩ := bounded.limits
    exact Or.inr ⟨capacity, congrArg Value.number hcapacity, by omega⟩
  maxOrder := by
    obtain ⟨n, hn, hmost⟩ := bounded.maxOrder
    exact Or.inr ⟨n, congrArg Value.number hn, hmost⟩
  bufferListWrap := by
    obtain ⟨n, hn, hleast⟩ := bounded.bufferListWrap
    exact Or.inr ⟨n, congrArg Value.number hn, hleast⟩
  debug := Or.inr ⟨(ofValue machine v).debug, rfl⟩
  architecture := Or.inr ⟨(ofValue machine v).architecture, rfl, bounded.architecture⟩

/-! ### Resolving -/

/-- The finding for a size limit that comes too close to a capacity. -/
def tooClose (limit capacity : Nat) : Failure :=
  .configuration (marginMessage (ofCount limit) (ofCount capacity)) [marginIssue (ofCount limit)]

/-- A document with checked keys is refused for its margin or not at all. -/
theorem resolve_of_checked (checked : KeysChecked (given document)) (safe : (given document).Safe) :
    resolve machine document =
      if capacityOf (given document) < limitOf (given document) + margin then
        .error (tooClose (limitOf (given document)) (capacityOf (given document)))
      else .ok (ofValue machine (given document)) := by
  have conforms := keysChecked_iff.mp checked
  have hvalid : validate schema (given document) = .ok (normalized schema (given document)) :=
    validate_eq_ok.mpr ⟨conforms, rfl⟩
  have hresolve : resolve machine document =
      let s := ofValue machine (given document)
      if s.bufferCapacity - s.sizeLimit < margin then
        .error (.configuration (marginMessage s.sizeLimit s.bufferCapacity)
          [marginIssue s.sizeLimit])
      else .ok s := by
    rw [← ofValue_normalized conforms]
    rw [given] at hvalid ⊢
    rw [resolve]
    dsimp only
    rw [hvalid]
  rw [hresolve]
  simp only [margin_iff checked safe]
  rw [tooClose, ← sizeLimit_ofValue machine checked safe,
    ← bufferCapacity_ofValue machine checked safe]

/-- Settings that are accepted on a machine of some architecture are within their bounds, keep every
given key, and are accepted again as they are. A document whose given keys pass their own checks is
refused exactly when its size limit, given or derived, lies above its capacity less the margin. -/
theorem resolve_settles (machine : String) (known : machine ≠ "") (document : Value)
    (safe : (given document).Safe) :
    (∀ s, resolve machine document = .ok s →
      s.Bounded ∧
        (∀ key, (given document).field key ≠ .missing →
          s.toDocument.field key = (given document).field key) ∧
        resolve machine s.toDocument = .ok s) ∧
    (KeysChecked (given document) →
      ((∃ e, resolve machine document = .error e) ↔
        (capacityOf (given document) : Int) - margin < limitOf (given document)) ∧
      ∀ e, resolve machine document = .error e →
        e = tooClose (limitOf (given document)) (capacityOf (given document))) := by
  constructor
  · intro s accepted
    obtain ⟨checked, rfl, kept⟩ := resolve_ok_iff.mp accepted
    have hbounded := bounded_ofValue known checked safe kept
    refine ⟨hbounded, fun key there => field_toDocument checked there, ?_⟩
    have hsame := ofValue_toDocument machine (ofValue machine (given document))
    exact resolve_ok_iff.mpr ⟨keysChecked_toDocument checked safe hbounded, hsame.symm, kept⟩
  · intro checked
    rw [resolve_of_checked checked safe]
    split_ifs with hclose
    · refine ⟨⟨fun _ => by omega, fun _ => ⟨_, rfl⟩⟩, fun e he => ?_⟩
      exact (Except.error.inj he).symm
    · refine ⟨⟨?_, fun hless => by omega⟩, ?_⟩
      · rintro ⟨e, he⟩
        cases he
      · intro e he
        cases he

/-- A document that gives a size limit, and a capacity that leaves room for one of 170. -/
def snug (limit : Nat) : Value :=
  .record [("sizeLimit", .number (ofCount limit)), ("bufferCapacity", .number (ofCount 250))]

def snugSettings : Settings :=
  { defaults with sizeLimit := ofCount 170, bufferCapacity := ofCount 250 }

theorem safe_snug {limit : Nat} (safe : (ofCount limit).InSafeRange) :
    (given (snug limit)).Safe := by
  refine Value.safe_record fun f hf x hx => ?_
  simp only [List.mem_cons, List.not_mem_nil, or_false] at hf
  rcases hf with rfl | rfl
  · cases hx
    exact safe
  · cases hx
    exact ⟨by decide +kernel, by decide +kernel⟩

theorem keysChecked_snug {limit : Nat} (positive : 1 ≤ limit) :
    KeysChecked (given (snug limit)) where
  known := ⟨_, rfl, by simp only [List.forall_mem_cons]; decide +kernel⟩
  pageSize := Or.inl rfl
  sizeLimit := Or.inr ⟨limit, rfl, positive⟩
  bufferCapacity := Or.inr ⟨250, rfl, by decide⟩
  maxOrder := Or.inl rfl
  bufferListWrap := Or.inl rfl
  debug := Or.inl rfl
  architecture := Or.inl rfl

/-- A limit of 170 is accepted and settles, and one of 171 is refused. -/
theorem resolve_snug :
    "x64" ≠ "" ∧ (given (snug 170)).Safe ∧ resolve "x64" (snug 170) = .ok snugSettings ∧
      snugSettings.Bounded ∧ resolve "x64" snugSettings.toDocument = .ok snugSettings ∧
      (given (snug 171)).Safe ∧ KeysChecked (given (snug 171)) ∧
      ∃ e, resolve "x64" (snug 171) = .error e := by
  have hknown : "x64" ≠ "" := by decide
  have hsafe : (given (snug 170)).Safe := safe_snug ⟨by decide +kernel, by decide +kernel⟩
  have hover : (given (snug 171)).Safe := safe_snug ⟨by decide +kernel, by decide +kernel⟩
  have haccepted : resolve "x64" (snug 170) = .ok snugSettings :=
    resolve_of_validate rfl (by decide +kernel) (by decide +kernel)
  obtain ⟨hbounded, -, hagain⟩ := (resolve_settles _ hknown _ hsafe).1 _ haccepted
  have hchecked : KeysChecked (given (snug 171)) := keysChecked_snug (by decide)
  have hrefused := ((resolve_settles _ hknown _ hover).2 hchecked).1.mpr (by decide +kernel)
  exact ⟨hknown, hsafe, haccepted, hbounded, hagain, hover, hchecked, hrefused⟩

end Settings

end DeviceReports
