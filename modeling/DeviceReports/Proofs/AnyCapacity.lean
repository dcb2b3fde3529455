import DeviceReports.Proofs.BufferContent
import DeviceReports.Report.Window
import Mathlib.Tactic.Linarith

/-!
# Buffers of any capacity

Capacities need not be whole numbers. What a buffer holds ends at the whole part, but its length
may reach the capacity itself, and then it is no count of bytes. Every print returns all the same,
unless the capacity lies between zero and one: then the storage is empty, doubling leaves it so,
and a text that is printed is waited for without end. Windows are cut out of the content; only
whether one is the last depends on the length.
-/

set_option autoImplicit false

namespace DeviceReports

open Text (Bytes)

namespace Number

theorem lesser_finite (p q : Rat) : (finite p).lesser (finite q) = finite (min p q) := by
  change (if finite p ≤ finite q then finite p else finite q) = _
  by_cases h : p ≤ q
  · have hle : finite p ≤ finite q := decide_eq_true h
    rw [if_pos hle, min_eq_left h]
  · have hgt : ¬ finite p ≤ finite q := fun hle => h (of_decide_eq_true hle)
    rw [if_neg hgt, min_eq_right (le_of_not_ge h)]

theorem lesser_of_le {x y : Number} (h : x ≤ y) : x.lesser y = x := by
  cases x with
  | nan => cases h
  | _ =>
    cases y with
    | nan => cases h
    | _ => exact if_pos h

theorem lesser_of_not_le {x y : Number} (number : x ≠ .nan) (h : ¬ x ≤ y) : x.lesser y = y := by
  cases x with
  | nan => exact absurd rfl number
  | _ =>
    cases y with
    | nan => rfl
    | _ => exact if_neg h

theorem lesser_self (x : Number) : x.lesser x = x := by
  cases x with
  | nan => rfl
  | _ => exact ite_self _

theorem lesser_nan (x : Number) : x.lesser .nan = .nan := by
  cases x <;> rfl

/-- The whole part of a number above minus one is a count. -/
theorem whole?_finite {q : Rat} (above : -1 < q) : ∃ w : Nat,
    (finite q).whole? = some (w : Int) ∧ q < w + 1 ∧ ((w : Rat) ≤ q ∨ w = 0) := by
  have hden : 0 < (q.den : Int) := by exact_mod_cast q.den_pos
  rcases le_or_gt 0 q with hpos | hneg
  · have hnum : 0 ≤ q.num := Rat.num_nonneg.mpr hpos
    have hfloor : ((q.num / q.den).toNat : Int) = ⌊q⌋ := by
      rw [Int.toNat_of_nonneg (Int.ediv_nonneg hnum hden.le), ← Rat.floor_def]
      rfl
    have hcast : (((q.num / q.den).toNat : Nat) : Rat) = ((⌊q⌋ : Int) : Rat) := by
      rw [← hfloor, Int.cast_natCast]
    refine ⟨(q.num / q.den).toNat, ?_, ?_, Or.inl ?_⟩
    · rw [whole?, Int.tdiv_eq_ediv_of_nonneg hnum,
        Int.toNat_of_nonneg (Int.ediv_nonneg hnum hden.le)]
    · rw [hcast]
      exact Int.lt_floor_add_one q
    · rw [hcast]
      exact Int.floor_le q
  · have hnum : q.num < 0 := Rat.num_neg.mpr hneg
    have hsmall : -(q.den : Int) < q.num := by
      have := (Rat.lt_iff (-1) q).mp above
      simpa using this
    have hzero : Int.tdiv (-q.num) q.den = 0 := Int.tdiv_eq_zero_of_lt (by omega) (by omega)
    rw [Int.neg_tdiv] at hzero
    refine ⟨0, ?_, by simpa using hneg.trans one_pos, Or.inr rfl⟩
    rw [whole?, Nat.cast_zero]
    congr 1
    omega

/-- A position past the end names the end. -/
theorem position_of_ofCount_le {x : Number} {n : Nat} (h : ofCount n ≤ x) : x.position n = n := by
  rcases x with _ | negative | q
  · cases h
  · cases negative with
    | false => rfl
    | true => cases h
  · have hle : (n : Rat) ≤ q := of_decide_eq_true h
    have hnonneg : (0 : Rat) ≤ n := Nat.cast_nonneg n
    obtain ⟨w, hwhole, hlt, -⟩ := whole?_finite (q := q) (by linarith)
    have hw : n < w + 1 := by exact_mod_cast hle.trans_lt hlt
    rw [position, hwhole]
    dsimp only
    rw [if_neg (by omega), Int.toNat_natCast, Nat.min_eq_right (by omega)]

end Number

namespace ReportBuffer

variable {b : ReportBuffer} {limit capacity : Number} {n : Nat}

/-! ### What printing keeps -/

/-- The bytes that a capacity admits that is not unbounded: its whole part. -/
def admitted (b : ReportBuffer) : Nat := (b.capacity.whole?.getD 0).toNat

/-- A capacity whose storage can be doubled, or needs no doubling: it is not a number, or above
minus one and not between zero and one. -/
inductive Roomy : Number → Prop
  | nan : Roomy .nan
  | finite {q : Rat} (above : -1 < q) (roomy : ¬ (0 < q ∧ q < 1)) : Roomy (.finite q)

/-- What holds of a buffer from its creation on, whatever is printed. -/
structure Sound (b : ReportBuffer) : Prop where
  roomy : Roomy b.capacity
  reserved_le : b.reserved ≤ b.admitted
  initial_le : min b.admitted initialBytes ≤ b.reserved
  length_cases : b.length = .ofCount b.size ∨ b.capacity.isInteger = false ∧
    b.length = b.capacity ∧ b.size = b.admitted ∧ b.reserved = b.admitted

theorem admitted_of_whole {w : Nat} (whole : b.capacity.whole? = some (w : Int)) :
    b.admitted = w := by
  rw [admitted, whole, Option.getD_some, Int.toNat_natCast]

namespace Sound

/-- The capacity of a sound buffer beside what it admits. -/
theorem capacity_cases (sound : b.Sound) : b.capacity = .nan ∧ b.admitted = 0 ∨
    ∃ q, b.capacity = .finite q ∧ -1 < q ∧ ¬ (0 < q ∧ q < 1) ∧
      q < b.admitted + 1 ∧ ((b.admitted : Rat) ≤ q ∨ b.admitted = 0) := by
  have hroomy := sound.roomy
  rcases hcapacity : b.capacity with _ | negative | q
  · exact Or.inl ⟨rfl, by rw [admitted, hcapacity]; rfl⟩
  · rw [hcapacity] at hroomy
    cases hroomy
  · rw [hcapacity] at hroomy
    cases hroomy with
    | finite above roomy =>
      obtain ⟨w, hwhole, hlt, hle⟩ := Number.whole?_finite above
      rw [admitted_of_whole (by rw [hcapacity, hwhole])]
      exact Or.inr ⟨q, rfl, above, roomy, hlt, hle⟩

theorem whole?_capacity (sound : b.Sound) : b.capacity.whole? = some (b.admitted : Int) := by
  have hroomy := sound.roomy
  rcases hcapacity : b.capacity with _ | negative | q
  · rw [admitted, hcapacity]
    rfl
  · rw [hcapacity] at hroomy
    cases hroomy
  · rw [hcapacity] at hroomy
    cases hroomy with
    | finite above roomy =>
      obtain ⟨w, hwhole, -⟩ := Number.whole?_finite above
      rw [admitted_of_whole (by rw [hcapacity, hwhole]), hwhole]

theorem whole?_length (sound : b.Sound) : b.length.whole? = some (b.size : Int) := by
  rcases sound.length_cases with hlength | ⟨-, hlength, hsize, -⟩
  · exact hlength ▸ Number.whole?_ofCount b.size
  · rw [hlength, hsize, sound.whole?_capacity]

theorem size_le (sound : b.Sound) : b.size ≤ b.admitted :=
  b.size_le_reserved.trans sound.reserved_le

theorem position_capacity (sound : b.Sound) :
    b.capacity.position b.admitted = b.admitted := by
  rw [Number.position, sound.whole?_capacity]
  dsimp only
  rw [if_neg (by omega), Int.toNat_natCast, Nat.min_self]

theorem capacity_of_isInteger (sound : b.Sound) (integer : b.capacity.isInteger = true) :
    b.capacity = .ofCount b.admitted := by
  have hwhole := sound.whole?_capacity
  obtain ⟨z, hz⟩ := Number.exists_int integer
  have hadmitted : z = (b.admitted : Int) := by simpa [hz, Number.whole?] using hwhole
  rw [hz, hadmitted, Number.ofCount, Int.cast_natCast]

/-- A count that is not above the capacity is admitted. -/
theorem le_admitted (sound : b.Sound) {q : Rat} (hq : b.capacity = .finite q) {m : Nat}
    (within : (m : Rat) ≤ q) : m ≤ b.admitted := by
  rcases sound.capacity_cases with ⟨hnan, -⟩ | ⟨q', hq', -, -, hlt, -⟩
  · rw [hnan] at hq
    cases hq
  · obtain rfl : q' = q := Number.finite.inj (hq'.symm.trans hq)
    have hless : (m : Rat) < (b.admitted + 1 : Nat) := by
      push_cast
      exact within.trans_lt hlt
    exact Nat.le_of_lt_succ (by exact_mod_cast hless)

/-- The whole part of what is left of a capacity, and no more, can still be admitted. -/
theorem position_rest_le (sound : b.Sound) {q : Rat} (hq : b.capacity = .finite q) (n : Nat) :
    b.size + (Number.finite (q - b.size)).position n ≤ b.admitted := by
  have hsize := sound.size_le
  rcases sound.capacity_cases with ⟨hnan, -⟩ | ⟨q', hq', habove, -, -, hle⟩
  · rw [hnan] at hq
    cases hq
  obtain rfl : q' = q := Number.finite.inj (hq'.symm.trans hq)
  have hrest : -1 < q' - b.size := by
    rcases hle with hle | hzero
    · have : (b.size : Rat) ≤ b.admitted := by exact_mod_cast hsize
      linarith
    · have hnone : b.size = 0 := by omega
      rw [hnone, Nat.cast_zero, sub_zero]
      exact habove
  obtain ⟨v, hwhole, -, hv⟩ := Number.whole?_finite hrest
  have hposition : (Number.finite (q' - b.size)).position n = min v n := by
    rw [Number.position, hwhole]
    dsimp only
    rw [if_neg (by omega), Int.toNat_natCast]
  have hfits : b.size + v ≤ b.admitted := by
    rcases hv with hv | rfl
    · refine sound.le_admitted hq ?_
      push_cast
      linarith
    · exact hsize
  omega

theorem takes_nan (hnan : b.capacity = .nan) (n : Nat) : b.takes n = .nan := by
  rw [takes, room, hnan]
  cases b.length <;> rfl

theorem takes_finite {q : Rat} (hq : b.capacity = .finite q) (hlength : b.length = .ofCount b.size)
    (n : Nat) : b.takes n = .finite (min (q - b.size) n) := by
  rw [takes, room, hq, hlength, ← Number.lesser_finite, sub_eq_add_neg]
  rfl

/-- A buffer whose length has reached the capacity takes nothing more. -/
theorem takes_spent {q : Rat} (hq : b.capacity = .finite q) (hlength : b.length = b.capacity)
    (n : Nat) : b.takes n = .ofCount 0 := by
  have hnonneg : (0 : Rat) ≤ n := Nat.cast_nonneg n
  rw [takes, room, hlength, hq]
  change (Number.finite (q + -q)).lesser (.finite n) = .finite ((0 : Nat) : Rat)
  rw [Number.lesser_finite, add_neg_cancel, min_eq_left hnonneg, Nat.cast_zero]

/-- What a print takes ends within the capacity: it is a count of bytes, or what is left of a
capacity that is no whole number. -/
theorem takes_cases (sound : b.Sound) (n : Nat) :
    (∃ m, b.takes n = .ofCount m ∧ m ≤ n ∧ b.length = .ofCount b.size ∧
      b.size + m ≤ b.admitted) ∨
    b.capacity.isInteger = false ∧ b.length.exactSum (b.takes n) = b.capacity ∧
      b.size + (b.takes n).position n ≤ b.admitted := by
  rcases sound.capacity_cases with ⟨hnan, -⟩ | ⟨q, hq, -⟩
  · have hnothing : Number.nan.position n = 0 := Nat.zero_min n
    rw [takes_nan hnan, hnan, hnothing]
    exact Or.inr ⟨rfl, by cases b.length <;> rfl, sound.size_le⟩
  rcases sound.length_cases with hlength | ⟨huneven, hlength, -⟩
  · have htakes := takes_finite hq hlength n
    rcases le_or_gt (n : Rat) (q - b.size) with hfits | hcut
    · -- all of it fits
      refine Or.inl ⟨n, by rw [htakes, min_eq_right hfits]; rfl, Nat.le_refl n, hlength, ?_⟩
      refine sound.le_admitted hq ?_
      push_cast
      linarith
    rw [min_eq_left hcut.le] at htakes
    rcases heven : b.capacity.isInteger with _ | _
    · refine Or.inr ⟨rfl, ?_, htakes ▸ sound.position_rest_le hq n⟩
      rw [htakes, hlength, hq]
      change Number.finite (b.size + (q - b.size)) = _
      rw [add_sub_cancel]
    · have hsize := sound.size_le
      obtain rfl : q = (b.admitted : Nat) :=
        Number.finite.inj (hq.symm.trans (sound.capacity_of_isInteger heven))
      rw [← Nat.cast_sub hsize] at htakes hcut
      have hless : b.admitted - b.size < n := by exact_mod_cast hcut
      exact Or.inl ⟨b.admitted - b.size, htakes, hless.le, hlength, by omega⟩
  · rw [takes_spent hq hlength, Number.position_ofCount, Nat.zero_min]
    refine Or.inr ⟨huneven, ?_, sound.size_le⟩
    rw [hlength, hq]
    change Number.finite (q + ((0 : Nat) : Rat)) = _
    rw [Nat.cast_zero, add_zero]

/-- The storage that is provided for a size within the capacity. -/
structure Provides (b : ReportBuffer) (size : Number) (bytes : Array UInt8) : Prop where
  outcome : (ReportBuffer.reserve size).outcome b = (.ok (), { b with bytes })
  initial_le : min b.admitted initialBytes ≤ bytes.size
  size_le : bytes.size ≤ b.admitted
  counted : ∀ m, size = .ofCount m → m ≤ bytes.size
  full : size = b.capacity → bytes.size = b.admitted

/-- A storage of no bytes, where the capacity is not a number, is replaced by one of no bytes. -/
theorem provides_nan (sound : b.Sound) (hnan : b.capacity = .nan) :
    Provides b .nan (stored b.content.toList 0) := by
  have hadmitted : b.admitted = 0 := by rw [admitted, hnan]; rfl
  have hmost := sound.reserved_le
  have hheld := b.size_le_reserved
  have hempty : (stored b.content.toList 0).size = 0 :=
    size_stored (by rw [length_content]; omega)
  have hshort : ¬ Number.nan ≤ .ofCount b.reserved := fun h => by cases h
  exact {
    outcome := reserve_grown (b := b) hshort rfl (by rw [hnan, Number.lesser_nan]; rfl) (by omega)
    initial_le := by omega
    size_le := by omega
    counted := fun m hm => by cases hm
    full := fun _ => by omega }

/-- What a finite capacity admits is reached by a count that reaches the capacity. -/
theorem admitted_le (sound : b.Sound) {q : Rat} (hq : b.capacity = .finite q) {n : Nat}
    (reaches : q ≤ n) : b.admitted ≤ n := by
  rcases sound.capacity_cases with ⟨-, hzero⟩ | ⟨q', hq', -, -, -, hle | hzero⟩
  · omega
  · obtain rfl : q' = q := Number.finite.inj (hq'.symm.trans hq)
    exact_mod_cast hle.trans reaches
  · omega

/-- A storage that is too small for a size within a finite capacity has bytes to double. -/
theorem reserved_pos (sound : b.Sound) {p q : Rat} (hq : b.capacity = .finite q) (within : p ≤ q)
    (short : (b.reserved : Rat) < p) : 0 < b.reserved := by
  have hleast := sound.initial_le
  rcases sound.capacity_cases with ⟨hnan, -⟩ | ⟨q', hq', -, hroomy, hlt, -⟩
  · rw [hnan] at hq
    cases hq
  obtain rfl : q' = q := Number.finite.inj (hq'.symm.trans hq)
  by_contra hnone
  have hnothing : b.reserved = 0 := by omega
  have hzero : b.admitted = 0 := by
    have : 0 < initialBytes := by decide
    omega
  rw [hnothing, Nat.cast_zero] at short
  rw [hzero, Nat.cast_zero, zero_add] at hlt
  exact hroomy ⟨short.trans_le within, hlt⟩

/-- A doubled storage is cut at what the capacity admits. -/
theorem allocate_lesser (sound : b.Sound) {q : Rat} (hq : b.capacity = .finite q) (n : Nat) :
    allocate ((Number.ofCount n).lesser b.capacity) =
      .ok (Array.replicate (min n b.admitted) 0) := by
  have hlesser : (Number.ofCount n).lesser b.capacity = .finite (min n q) := by
    rw [hq, ← Number.lesser_finite]
    rfl
  rcases le_or_gt (n : Rat) q with hinside | hpast
  · rw [hlesser, min_eq_left hinside, Nat.min_eq_left (sound.le_admitted hq hinside)]
    exact allocate_ofCount n
  · rw [hlesser, min_eq_right hpast.le, ← hq, Nat.min_eq_right (sound.admitted_le hq hpast.le)]
    exact allocate_of_whole sound.whole?_capacity

/-- A storage that is too small for a size within a finite capacity is doubled. -/
theorem exists_provides_grown (sound : b.Sound) {p q : Rat} (hq : b.capacity = .finite q)
    (within : p ≤ q) (short : (b.reserved : Rat) < p) :
    ∃ bytes, Provides b (.finite p) bytes := by
  have hmost := sound.reserved_le
  have hleast := sound.initial_le
  have hheld := b.size_le_reserved
  obtain ⟨rounds, ⟨hstop, -⟩, hdoubled⟩ :=
    doubledTo?_rounds p (sound.reserved_pos hq within short)
  have hself := self_le_of_doubledTo? hdoubled
  obtain ⟨reached, hreached⟩ : ∃ reached, 2 ^ rounds * b.reserved = reached := ⟨_, rfl⟩
  rw [hreached] at hstop hdoubled hself
  have hshort : ¬ Number.finite p ≤ .ofCount b.reserved :=
    fun h => absurd short (not_lt.mpr (of_decide_eq_true h))
  have hsize : (stored b.content.toList (min reached b.admitted)).size = min reached b.admitted :=
    size_stored (by rw [length_content]; omega)
  refine ⟨_, reserve_grown hshort hdoubled (sound.allocate_lesser hq reached) (by omega),
    by omega, by omega, ?_, ?_⟩
  · intro m hm
    obtain rfl : p = m := Number.finite.inj hm
    have hadmitted := sound.le_admitted hq within
    have hcounted : m ≤ reached := by exact_mod_cast hstop
    omega
  · intro hfull
    obtain rfl : p = q := Number.finite.inj (hfull.trans hq)
    have hadmitted := sound.admitted_le hq hstop
    omega

/-- A size within the capacity finds its storage. -/
theorem exists_provides (sound : b.Sound) {size : Number}
    (within : (∃ m, size = .ofCount m ∧ m ≤ b.admitted) ∨ size = b.capacity) :
    ∃ bytes, Provides b size bytes := by
  have hmost := sound.reserved_le
  rcases sound.capacity_cases with ⟨hnan, hadmitted⟩ | ⟨q, hq, -, -, -, hle⟩
  · rcases within with ⟨m, rfl, hm⟩ | rfl
    · refine ⟨b.bytes, reserve_of_le (Number.ofCount_le_ofCount.mpr (by omega)),
        sound.initial_le, hmost, fun m' hm' => ?_, fun hfull => ?_⟩
      · rw [← Number.ofCount_inj.mp hm']
        exact (by omega : m ≤ b.reserved)
      · rw [hnan] at hfull
        cases hfull
    · rw [hnan]
      exact ⟨_, sound.provides_nan hnan⟩
  · obtain ⟨p, rfl, hp⟩ : ∃ p, size = .finite p ∧ (p ≤ b.reserved ∨ p ≤ q) := by
      rcases within with ⟨m, rfl, hm⟩ | rfl
      · refine ⟨m, rfl, ?_⟩
        rcases hle with hle | hzero
        · have : (m : Rat) ≤ b.admitted := by exact_mod_cast hm
          exact Or.inr (this.trans hle)
        · left
          exact_mod_cast (by omega : m ≤ b.reserved)
      · exact ⟨q, hq, Or.inr le_rfl⟩
    rcases le_or_gt p b.reserved with hfits | hshort
    · -- a storage that is large enough stays
      have hroomy : Number.finite p ≤ .ofCount b.reserved := decide_eq_true hfits
      refine ⟨b.bytes, reserve_of_le hroomy, sound.initial_le, hmost,
        fun m hm => Number.ofCount_le_ofCount.mp (hm ▸ hroomy), fun hfull => ?_⟩
      obtain rfl : p = q := Number.finite.inj (hfull.trans hq)
      exact Nat.le_antisymm hmost (sound.admitted_le hq hfits)
    · exact sound.exists_provides_grown hq (hp.resolve_left (not_le.mpr hshort)) hshort

/-- A print into a sound buffer returns and leaves a sound one of the same bounds. -/
theorem append (sound : b.Sound) (encoded : Bytes) : ∃ after : ReportBuffer,
    (ReportBuffer.append encoded).outcome b = (.ok (), after) ∧ after.Sound ∧
      after.limit = b.limit ∧ after.capacity = b.capacity := by
  have hannounced : (b.announced encoded.length).Sound :=
    ⟨sound.roomy, sound.reserved_le, sound.initial_le, sound.length_cases⟩
  by_cases hnothing : b.takes encoded.length = .ofCount 0
  · exact ⟨_, append_nothing hnothing, hannounced, rfl, rfl⟩
  have hcases := sound.takes_cases encoded.length
  obtain ⟨bytes, hprovided⟩ : ∃ bytes, Provides (b.announced encoded.length)
      (b.length.exactSum (b.takes encoded.length)) bytes := by
    refine hannounced.exists_provides ?_
    rcases hcases with ⟨m, hm, -, hlength, hfits⟩ | ⟨-, hsum, -⟩
    · exact Or.inl ⟨b.size + m, by rw [hm, hlength, Number.exactSum_ofCount], hfits⟩
    · exact Or.inr hsum
  have hroom : b.size + (b.takes encoded.length).position encoded.length ≤ bytes.size := by
    rcases hcases with ⟨m, hm, hle, hlength, -⟩ | ⟨-, hsum, hfits⟩
    · rw [hm, Number.position_ofCount, Nat.min_eq_left hle]
      exact hprovided.counted _ (by rw [hm, hlength, Number.exactSum_ofCount])
    · have hfull : bytes.size = b.admitted := hprovided.full hsum
      omega
  have htaken : b.size + (encoded.take ((b.takes encoded.length).position encoded.length)).length ≤
      bytes.size := by
    rw [List.length_take]
    omega
  obtain ⟨written, hwritten, hsize⟩ := exists_store sound.whole?_length htaken
  have hinitial : min b.admitted initialBytes ≤ written.size := hsize ▸ hprovided.initial_le
  have hmost : written.size ≤ b.admitted := hsize ▸ hprovided.size_le
  refine ⟨_, append_something hnothing hprovided.outcome hwritten,
    ⟨sound.roomy, hmost, hinitial, ?_⟩, rfl, rfl⟩
  rcases hcases with ⟨m, hm, hle, hlength, -⟩ | ⟨huneven, hsum, -⟩
  · have hlater : b.length.exactSum (b.takes encoded.length) = .ofCount (b.size + m) := by
      rw [hm, hlength, Number.exactSum_ofCount]
    have hcounted : b.size + m ≤ written.size := hsize ▸ hprovided.counted _ hlater
    left
    change b.length.exactSum (b.takes encoded.length) =
      .ofCount ((b.length.exactSum (b.takes encoded.length)).position written.size)
    rw [hlater, Number.position_ofCount, Nat.min_eq_left hcounted]
  · have hfull : written.size = b.admitted := hsize.trans (hprovided.full hsum)
    right
    refine ⟨huneven, hsum, ?_, hfull⟩
    change (b.length.exactSum (b.takes encoded.length)).position written.size = b.admitted
    rw [hsum, hfull, sound.position_capacity]

theorem outcome_print (sound : b.Sound) (t : Text) :
    (print t).outcome b = (.ok (), b.printed t) := by
  obtain ⟨after, hafter, -⟩ := sound.append t.encode
  rw [printed, print, hafter]

theorem printed (sound : b.Sound) (t : Text) : (b.printed t).Sound := by
  obtain ⟨after, hafter, hsound, -⟩ := sound.append t.encode
  rwa [ReportBuffer.printed, print, hafter]

theorem bounds_printed (sound : b.Sound) (t : Text) :
    (b.printed t).limit = b.limit ∧ (b.printed t).capacity = b.capacity := by
  obtain ⟨after, hafter, -, hbounds⟩ := sound.append t.encode
  rwa [ReportBuffer.printed, print, hafter]

theorem printAll (sound : b.Sound) (ts : List Text) : (b.printAll ts).Sound := by
  induction ts generalizing b with
  | nil => exact sound
  | cons t rest ih => exact ih (sound.printed t)

theorem bounds_printAll (sound : b.Sound) (ts : List Text) :
    (b.printAll ts).limit = b.limit ∧ (b.printAll ts).capacity = b.capacity := by
  induction ts generalizing b with
  | nil => exact ⟨rfl, rfl⟩
  | cons t rest ih =>
    obtain ⟨hlimit, hcapacity⟩ := sound.bounds_printed t
    obtain ⟨hlimit', hcapacity'⟩ := ih (sound.printed t)
    exact ⟨hlimit'.trans hlimit, hcapacity'.trans hcapacity⟩

end Sound

/-! ### Buffers from their creation on -/

theorem roomy_ofCount (n : Nat) : Roomy (.ofCount n) := by
  have hnonneg : (0 : Rat) ≤ n := Nat.cast_nonneg n
  refine .finite (by linarith) ?_
  rintro ⟨hpos, hlt⟩
  have hpos' : 0 < n := by exact_mod_cast hpos
  have hlt' : n < 1 := by exact_mod_cast hlt
  omega

theorem sound_new (limit : Number) (capacity : Nat) : (new limit capacity).Sound := by
  have hadmitted : (new limit capacity).admitted = capacity :=
    admitted_of_whole (Number.whole?_ofCount capacity)
  have hreserved : (new limit capacity).reserved = min capacity initialBytes := by
    rw [reserved, new, Array.size_replicate]
  refine ⟨roomy_ofCount capacity, by omega, by omega, Or.inl ?_⟩
  rw [size, new]
  dsimp only
  rw [Number.position_ofCount, Nat.zero_min]

/-- A buffer whose capacity lies between zero and one: it has no storage and never gets any. -/
structure Narrow (b : ReportBuffer) : Prop where
  fraction : ∃ q, b.capacity = .finite q ∧ 0 < q ∧ q < 1
  length_eq : b.length = .ofCount 0
  reserved_eq : b.reserved = 0

namespace Narrow

theorem takes (narrow : b.Narrow) : b.takes 0 = .ofCount 0 ∧
    ∃ q, 0 < q ∧ ∀ n, 0 < n → b.takes n = .finite q := by
  obtain ⟨q, hcapacity, hpos, hlt⟩ := narrow.fraction
  have htakes (n : Nat) : b.takes n = .finite (min q n) := by
    rw [ReportBuffer.takes, room, hcapacity, narrow.length_eq]
    change (Number.finite (q + -((0 : Nat) : Rat))).lesser _ = _
    rw [Number.ofCount, Number.lesser_finite, Nat.cast_zero, neg_zero, add_zero]
  refine ⟨?_, q, hpos, fun n hn => ?_⟩
  · rw [htakes, Nat.cast_zero, min_eq_right hpos.le]
    rfl
  · have hsome : (1 : Rat) ≤ n := by exact_mod_cast hn
    rw [htakes, min_eq_left (hlt.le.trans hsome)]

/-- Where no storage can be doubled, a text that is printed is waited for without end. -/
theorem print_endless (narrow : b.Narrow) {t : Text} (some_ : t.encode ≠ []) :
    (print t).outcome b = (.error .endless, b.announced t.encode.length) := by
  obtain ⟨-, q, hpos, htakes⟩ := narrow.takes
  have hsum : b.length.exactSum (b.takes t.encode.length) = .finite q := by
    rw [htakes _ (List.length_pos_iff.mpr some_), narrow.length_eq]
    change Number.finite (((0 : Nat) : Rat) + q) = _
    rw [Nat.cast_zero, zero_add]
  have hshort : ¬ Number.finite q ≤ .ofCount b.reserved := fun h => by
    rw [narrow.reserved_eq] at h
    have hle : q ≤ ((0 : Nat) : Rat) := of_decide_eq_true h
    rw [Nat.cast_zero] at hle
    exact absurd hpos (not_lt.mpr hle)
  refine append_endless ?_ ?_
  · rw [htakes _ (List.length_pos_iff.mpr some_)]
    intro h
    have hzero : q = ((0 : Nat) : Rat) := Number.finite.inj h
    rw [Nat.cast_zero] at hzero
    exact hpos.ne' hzero
  · rw [hsum]
    refine reserve_endless hshort ?_
    change doubledTo? q b.reserved = none
    rw [narrow.reserved_eq]
    exact doubledTo?_zero hpos

theorem printed (narrow : b.Narrow) (t : Text) : (b.printed t).Narrow := by
  have hprinted : b.printed t = b.announced t.encode.length := by
    by_cases hnothing : t.encode = []
    · have htakes : b.takes t.encode.length = .ofCount 0 := by
        rw [hnothing]
        exact narrow.takes.1
      rw [ReportBuffer.printed, print, append_nothing htakes]
    · rw [ReportBuffer.printed, narrow.print_endless hnothing]
  rw [hprinted]
  exact ⟨narrow.fraction, narrow.length_eq, narrow.reserved_eq⟩

theorem printAll (narrow : b.Narrow) (ts : List Text) : (b.printAll ts).Narrow := by
  induction ts generalizing b with
  | nil => exact narrow
  | cons t rest ih => exact ih (narrow.printed t)

theorem content (narrow : b.Narrow) : b.content.toList = [] := by
  have hsize := b.size_le_reserved
  have hlength := b.length_content
  rw [narrow.reserved_eq] at hsize
  exact List.eq_nil_of_length_eq_zero (by omega)

/-- Nothing is read of such a buffer. -/
theorem window (narrow : b.Narrow) (offset length : Nat) :
    b.window (.ofCount offset) (.ofCount length) = .ending := by
  have hmore : ¬ Number.ofCount offset + .ofCount length < b.length := by
    rw [narrow.length_eq, Number.ofCount_add_lt_iff (Nat.zero_le _)]
    exact Nat.not_lt_zero _
  have hpast : b.length ≤ .ofCount offset := by
    rw [narrow.length_eq]
    exact Number.ofCount_le_ofCount.mpr (Nat.zero_le offset)
  rw [ReportBuffer.window, if_neg hmore, if_pos hpast]

end Narrow

/-! ### What is read of a buffer -/

namespace Sound

theorem size_le_of_reached (sound : b.Sound) (reached : ¬ Number.ofCount n < b.length) :
    b.size ≤ n := by
  rcases sound.length_cases with hlength | ⟨-, hlength, hsize, -⟩
  · rw [hlength] at reached
    exact Nat.le_of_not_lt fun h => reached (Number.ofCount_lt_ofCount.mpr h)
  rcases sound.capacity_cases with ⟨-, hadmitted⟩ | ⟨q, hq, -, -, -, hle⟩
  · omega
  · rcases hle with hle | hzero
    · rw [hlength, hq] at reached
      have hqn : q ≤ n := not_lt.mp fun h => reached (decide_eq_true h)
      rw [hsize]
      exact_mod_cast hle.trans hqn
    · omega

theorem position_ofCount (sound : b.Sound) (n : Nat) :
    ((Number.ofCount n).lesser b.length).position b.reserved = min n b.size := by
  have hfits := b.size_le_reserved
  by_cases hinside : Number.ofCount n ≤ b.length
  · rw [Number.lesser_of_le hinside, Number.position_ofCount]
    rcases sound.length_cases with hlength | ⟨-, -, hsize, hreserved⟩
    · rw [hlength] at hinside
      have := Number.ofCount_le_ofCount.mp hinside
      omega
    · omega
  · have hend := sound.size_le_of_reached fun h => hinside (Number.le_of_lt h)
    rw [Number.lesser_of_not_le (fun h => by cases h) hinside, Nat.min_eq_right hend]
    rfl

/-- A sum that was rounded cuts the content where the exact sum does. -/
theorem position_sum (sound : b.Sound) (small : b.admitted ≤ mostBytes) (m n : Nat) :
    ((Number.ofCount m + .ofCount n).lesser b.length).position b.reserved =
      min (m + n) b.size := by
  rcases Nat.le_total (m + n) Number.exactBound with hsmall | hlarge
  · rw [Number.ofCount_add_ofCount hsmall]
    exact sound.position_ofCount (m + n)
  have hbelow : b.size < Number.exactBound := by
    have hsize := sound.size_le
    have : mostBytes < Number.exactBound := by decide
    omega
  have hsum : Number.ofCount Number.exactBound ≤ .ofCount m + .ofCount n := by
    change _ ≤ Number.ofRat ((m : Rat) + (n : Rat))
    rw [← Nat.cast_add]
    exact Number.exactBound_le_ofRat hlarge
  rw [Nat.min_eq_right (by omega)]
  by_cases hinside : Number.ofCount m + .ofCount n ≤ b.length
  · rw [Number.lesser_of_le hinside]
    rcases sound.length_cases with hlength | ⟨-, -, hsize, hreserved⟩
    · rw [hlength] at hinside
      exact absurd (Number.lt_of_le_of_lt_ofCount hinside hbelow)
        (Number.not_lt_of_ofCount_le hsum (Nat.le_refl _))
    · rw [hreserved, ← hsize]
      exact Number.position_of_ofCount_le
        (Number.le_trans (Number.ofCount_le_ofCount.mpr hbelow.le) hsum)
  · have hnumber : Number.ofCount m + .ofCount n ≠ .nan := fun h => by
      rw [h] at hsum
      cases hsum
    rw [Number.lesser_of_not_le hnumber hinside]
    rfl

/-- A window is cut out of the content, and it is the last unless its end is below the length. -/
theorem window (sound : b.Sound) (small : b.admitted ≤ mostBytes) (offset length : Nat) :
    b.window (.ofCount offset) (.ofCount length) =
      ⟨b.content.toList.extract offset (offset + length),
        !decide (Number.ofCount offset + .ofCount length < b.length)⟩ := by
  have hstart := sound.position_ofCount offset
  have hsize := b.length_content
  rw [ReportBuffer.window]
  split_ifs with hmore hpast
  · rw [slice_of_positions hstart (sound.position_sum small offset length), decide_eq_true hmore]
    rfl
  · have hend : b.size ≤ offset := sound.size_le_of_reached fun h => Number.not_lt_of_le hpast h
    rw [decide_eq_false hmore, Chunk.ending, List.extract_eq_take_drop,
      List.drop_of_length_le (by omega), List.take_nil]
    rfl
  · have hend : b.size ≤ offset + length := by
      rcases Nat.le_total (offset + length) Number.exactBound with hsmall | hlarge
      · rw [Number.ofCount_add_ofCount hsmall] at hmore
        exact sound.size_le_of_reached hmore
      · have hmost := sound.size_le
        unfold mostBytes at small
        omega
    have hstop : (b.length.lesser b.length).position b.reserved = min (offset + length) b.size := by
      rw [Number.lesser_self, Nat.min_eq_right hend]
      rfl
    rw [slice_of_positions hstart hstop, decide_eq_false hmore]
    rfl

end Sound

end ReportBuffer
end DeviceReports
