import DeviceReports.Number
import Mathlib.Algebra.Order.Field.Power
import Mathlib.Data.Rat.Floor
import Mathlib.Tactic.NormNum
import Mathlib.Tactic.Positivity

/-!
# Counts as figures

A count below 2^53 is a figure of its own, and so are the sums and orders that reads compute
with: a sum that is rounded has passed 2^53 already and stays there, and a difference compares with
such a count as it does before rounding. Offsets, lengths and limits may therefore be reasoned
about as natural numbers.
-/

set_option autoImplicit false

namespace DeviceReports.Number

protected theorem le_of_lt {x y : Number} (h : x < y) : x ≤ y := by
  change atMost x y = true
  change below x y = true at h
  rcases x with _ | a | p <;> rcases y with _ | b | q <;> simp only [below, atMost] at h ⊢ <;> grind

protected theorem not_lt_of_le {x y : Number} (h : x ≤ y) : ¬ y < x := by
  change ¬ below y x = true
  change atMost x y = true at h
  rcases x with _ | a | p <;> rcases y with _ | b | q <;> simp only [below, atMost] at h ⊢ <;> grind

protected theorem le_trans {x y z : Number} (h : x ≤ y) (h' : y ≤ z) : x ≤ z := by
  change atMost x z = true
  change atMost x y = true at h
  change atMost y z = true at h'
  rcases x with _ | a | p <;> rcases y with _ | b | q <;> rcases z with _ | c | r <;>
    simp only [atMost] at h h' ⊢ <;> grind

@[simp] theorem ofCount_lt_ofCount {a b : Nat} : ofCount a < ofCount b ↔ a < b := by
  change decide ((a : Rat) < (b : Rat)) = true ↔ a < b
  simp

@[simp] theorem ofCount_le_ofCount {a b : Nat} : ofCount a ≤ ofCount b ↔ a ≤ b := by
  change decide ((a : Rat) ≤ (b : Rat)) = true ↔ a ≤ b
  simp

/-- What is at least a count is below no smaller one. -/
theorem not_lt_of_ofCount_le {m n : Nat} {x : Number} (h : ofCount m ≤ x) (hn : n ≤ m) :
    ¬ x < ofCount n := by
  intro hlt
  cases x with
  | nan => cases h
  | infinite negative =>
    cases negative with
    | true => cases h
    | false => cases hlt
  | finite q =>
    have hm : (m : Rat) ≤ q := of_decide_eq_true h
    have hq : q < (n : Rat) := of_decide_eq_true hlt
    have hmn : (n : Rat) ≤ m := by exact_mod_cast hn
    exact absurd (hm.trans_lt hq) (not_lt.mpr hmn)

theorem ofRat_natCast {n : Nat} (h : n ≤ exactBound) : ofRat (n : Rat) = ofCount n := by
  simp [ofRat, ofCount, h]

theorem binaryExponent_natCast {n : Nat} (h : n ≠ 0) : binaryExponent (n : Rat) = n.log2 := by
  have hlog : 2 ^ n.log2 ≤ n := Nat.log2_self_le h
  have hone : Nat.log2 1 = 0 := Nat.log2_two_pow (n := 0)
  simp [binaryExponent, hone, hlog]

theorem le_nearestEven {m : Int} {q : Rat} (h : (m : Rat) ≤ q) : m ≤ nearestEven q := by
  have hfloor : m ≤ q.floor := Rat.le_floor_iff.mpr h
  simp only [nearestEven]
  split_ifs <;> omega

theorem spacing_natCast {n : Nat} (h : exactBound ≤ n) :
    spacing (n : Rat) = (2 : Rat) ^ (n.log2 - 52) := by
  have hn : n ≠ 0 := by unfold exactBound at h; omega
  have hlog : 53 ≤ n.log2 := (Nat.le_log2 hn).mpr (by unfold exactBound at h; omega)
  have hmax : max ((n.log2 : Int) - 52) (-1074) = ((n.log2 - 52 : Nat) : Int) := by omega
  rw [spacing, binaryExponent_natCast hn, hmax, zpow_natCast]

theorem spacing_pos (q : Rat) : 0 < spacing q := zpow_pos (by norm_num) _

/-- A positive rational is at least the power of two that its exponent names. -/
theorem two_zpow_binaryExponent_le {q : Rat} (pos : 0 < q) : (2 : Rat) ^ binaryExponent q ≤ q := by
  have hnum : ((q.num.natAbs : Nat) : Rat) = q * q.den := by
    have habs : ((q.num.natAbs : Int) : Rat) = q.num := by
      rw [Int.natAbs_of_nonneg (Rat.num_nonneg.mpr pos.le)]
    rw [← Int.cast_natCast, habs, Rat.mul_den_eq_num]
  have hden : (0 : Rat) < q.den := by exact_mod_cast q.den_pos
  rw [← mul_le_mul_iff_left₀ hden, ← hnum]
  simp only [binaryExponent]
  obtain ⟨k, hk⟩ : ∃ k : Int, (q.num.natAbs.log2 : Int) - (q.den.log2 : Int) = k := ⟨_, rfl⟩
  rw [hk]
  split_ifs with hless
  · have hn : (2 : Rat) ^ q.num.natAbs.log2 ≤ q.num.natAbs := by
      exact_mod_cast Nat.log2_self_le (by simpa using pos.ne')
    have hd : (q.den : Rat) ≤ 2 ^ (q.den.log2 + 1) := by exact_mod_cast Nat.lt_log2_self.le
    calc (2 : Rat) ^ (k - 1) * q.den ≤ 2 ^ (k - 1) * 2 ^ (q.den.log2 + 1) :=
          mul_le_mul_of_nonneg_left hd (by positivity)
      _ = 2 ^ q.num.natAbs.log2 := by
          rw [← zpow_natCast, ← zpow_natCast, ← zpow_add₀ (by norm_num)]
          congr 1
          omega
      _ ≤ _ := hn
  · have hle : ((q.den * 2 ^ k.toNat : Nat) : Rat) ≤ (q.num.natAbs * 2 ^ (-k).toNat : Nat) := by
      exact_mod_cast not_lt.mp hless
    have hsplit : (2 : Rat) ^ k.toNat = 2 ^ k * 2 ^ (-k).toNat := by
      rw [← zpow_natCast, ← zpow_natCast, ← zpow_add₀ (by norm_num)]
      congr 1
      omega
    push_cast at hle ⊢
    rw [hsplit, ← mul_assoc] at hle
    have := le_of_mul_le_mul_right hle (by positivity)
    linarith

theorem natCast_le_rounded {m : Nat} {q : Rat} (small : m ≤ exactBound) (pos : 0 < q)
    (h : (m : Rat) ≤ q) : (m : Rat) ≤ (nearestEven (q / spacing q) : Rat) * spacing q := by
  rcases le_or_gt (binaryExponent q) 52 with hfine | hcoarse
  · -- neighbours are at most one apart, so the count itself is among them
    obtain ⟨j, hj⟩ : ∃ j : Nat, spacing q = ((2 : Rat) ^ j)⁻¹ := by
      refine ⟨(-max (binaryExponent q - 52) (-1074)).toNat, ?_⟩
      rw [spacing, ← zpow_natCast, ← zpow_neg]
      congr 1
      omega
    have hscaled : (((m * 2 ^ j : Nat) : Int) : Rat) ≤ q / spacing q := by
      rw [hj, div_inv_eq_mul]
      push_cast
      exact mul_le_mul_of_nonneg_right h (by positivity)
    have hnear : (((m * 2 ^ j : Nat) : Int) : Rat) ≤ nearestEven (q / spacing q) := by
      exact_mod_cast le_nearestEven hscaled
    rw [hj] at hnear ⊢
    push_cast at hnear
    rwa [← div_eq_mul_inv, le_div_iff₀ (by positivity)]
  · -- the value is at least 2^53, and so is what it is rounded to
    have hspacing : spacing q = 2 ^ (binaryExponent q - 52) := by
      rw [spacing, max_eq_left (by omega)]
    have hscaled : (((2 ^ 52 : Nat) : Int) : Rat) ≤ q / spacing q := by
      rw [le_div_iff₀ (spacing_pos q), hspacing]
      calc (((2 ^ 52 : Nat) : Int) : Rat) * 2 ^ (binaryExponent q - 52)
          = 2 ^ (52 : Int) * 2 ^ (binaryExponent q - 52) := by norm_num
        _ = 2 ^ binaryExponent q := by
            rw [← zpow_add₀ (by norm_num)]
            congr 1
            omega
        _ ≤ q := two_zpow_binaryExponent_le pos
    have hnear : (((2 ^ 52 : Nat) : Int) : Rat) ≤ nearestEven (q / spacing q) := by
      exact_mod_cast le_nearestEven hscaled
    have htwo : (2 : Rat) ≤ spacing q := by
      rw [hspacing]
      calc (2 : Rat) = 2 ^ (1 : Int) := by norm_num
        _ ≤ 2 ^ (binaryExponent q - 52) := zpow_le_zpow_right₀ (by norm_num) (by omega)
    calc (m : Rat) ≤ (exactBound : Rat) := by exact_mod_cast small
      _ = (((2 ^ 52 : Nat) : Int) : Rat) * 2 := by norm_num [exactBound]
      _ ≤ _ := mul_le_mul hnear htwo (by norm_num) (le_trans (by positivity) hnear)

/-- Rounding does not cross a count: what is at least one before is so afterwards. -/
theorem ofCount_le_ofRat {m : Nat} {q : Rat} (small : m ≤ exactBound) (h : (m : Rat) ≤ q) :
    ofCount m ≤ ofRat q := by
  rw [ofRat]
  split_ifs with hexact
  · exact decide_eq_true h
  have hm : (0 : Rat) ≤ m := Nat.cast_nonneg m
  have hpos : 0 < q := by
    rcases lt_or_eq_of_le (hm.trans h) with hlt | hzero
    · exact hlt
    · exact absurd (by rw [← hzero]; decide) hexact
  have hrounded := natCast_le_rounded small hpos h
  dsimp only
  split_ifs
  · rw [decide_eq_false (not_lt.mpr hpos.le)]
    rfl
  · exact decide_eq_true hrounded

/-- Rounding keeps a count that has reached 2^53 at or above it. -/
theorem exactBound_le_ofRat {n : Nat} (h : exactBound ≤ n) : ofCount exactBound ≤ ofRat (n : Rat) :=
  ofCount_le_ofRat (Nat.le_refl _) (by exact_mod_cast h)

theorem ofCount_add_ofCount {a b : Nat} (h : a + b ≤ exactBound) :
    ofCount a + ofCount b = ofCount (a + b) := by
  change ofRat ((a : Rat) + (b : Rat)) = _
  rw [← Nat.cast_add, ofRat_natCast h]

/-- A sum compares with a count below 2^53 as it does before rounding. -/
theorem ofCount_add_lt_iff {a b n : Nat} (h : n ≤ exactBound) :
    ofCount a + ofCount b < ofCount n ↔ a + b < n := by
  rcases Nat.lt_or_ge (a + b) exactBound with hs | hs
  · rw [ofCount_add_ofCount (Nat.le_of_lt hs), ofCount_lt_ofCount]
  · have hsum : ofCount exactBound ≤ ofCount a + ofCount b := by
      change _ ≤ ofRat ((a : Rat) + (b : Rat))
      rw [← Nat.cast_add]
      exact exactBound_le_ofRat hs
    exact ⟨fun hlt => absurd hlt (not_lt_of_ofCount_le hsum h), fun hlt => by omega⟩

@[simp] theorem integer?_ofCount (n : Nat) : (ofCount n).integer? = some (n : Int) := by
  simp [integer?, ofCount]

@[simp] theorem whole?_ofCount (n : Nat) : (ofCount n).whole? = some (n : Int) := by
  simp [whole?, ofCount]

theorem count?_ofCount {n : Nat} (h : n < exactBound) : (ofCount n).count? = some n := by
  simp [count?, h]

theorem eq_ofCount_of_count? {x : Number} {n : Nat} (h : x.count? = some n) :
    x = ofCount n ∧ n < exactBound := by
  rcases x with _ | _ | q
  · cases h
  · cases h
  · by_cases hden : q.den = 1
    · have hinteger : (finite q).integer? = some q.num := by rw [integer?, if_pos hden]
      rw [count?, hinteger] at h
      dsimp only at h
      split at h
      · next hnum =>
        cases h
        have hq : q = ((q.num.toNat : Nat) : Rat) := by
          rw [← Int.cast_natCast, Int.toNat_of_nonneg hnum.1]
          exact (Rat.coe_int_num_of_den_eq_one hden).symm
        exact ⟨congrArg finite hq, by omega⟩
      · cases h
    · simp [count?, integer?, hden] at h

@[simp] theorem position_ofCount (size n : Nat) : (ofCount n).position size = min n size := by
  simp [position]

/-! ### Whole numbers and differences -/

theorem ofNat_eq_ofCount {n : Nat} (h : n ≤ exactBound) : ofNat n = ofCount n := ofRat_natCast h

theorem exists_int {x : Number} (integer : x.isInteger = true) : ∃ z : Int, x = .finite z := by
  rcases x with _ | _ | q
  · cases integer
  · cases integer
  · have hden : q.den = 1 := by
      by_contra h
      simp [isInteger, integer?, h] at integer
    exact ⟨q.num, congrArg finite (Rat.coe_int_num_of_den_eq_one hden).symm⟩

theorem finite_eq_ofCount {z : Int} (h : 0 ≤ z) : finite (z : Rat) = ofCount z.toNat := by
  rw [ofCount, ← Int.cast_natCast, Int.toNat_of_nonneg h]

/-- An integer that is at least a count is a count. -/
theorem exists_ofCount {x : Number} (integer : x.isInteger = true) {m : Nat} (h : ofCount m ≤ x) :
    ∃ n, m ≤ n ∧ x = ofCount n := by
  obtain ⟨z, rfl⟩ := exists_int integer
  have hz : ((m : Int) : Rat) ≤ z := of_decide_eq_true h
  have hm : (m : Int) ≤ z := by exact_mod_cast hz
  exact ⟨z.toNat, by omega, finite_eq_ofCount (by omega)⟩

theorem exists_ofCount_of_pos {x : Number} (integer : x.isInteger = true) (h : ofCount 0 < x) :
    ∃ n, 1 ≤ n ∧ x = ofCount n := by
  obtain ⟨z, rfl⟩ := exists_int integer
  have hz : (((0 : Nat) : Rat)) < z := of_decide_eq_true h
  have hpos : 0 < z := by exact_mod_cast hz
  exact ⟨z.toNat, by omega, finite_eq_ofCount (by omega)⟩

theorem nearestEven_le {m : Int} {q : Rat} (h : q ≤ m) : nearestEven q ≤ m := by
  have hfloor : q.floor ≤ m := by
    have := (Rat.floor_le q).trans h
    exact_mod_cast this
  rcases eq_or_lt_of_le hfloor with heq | hlt
  · have hq : q = m := le_antisymm h (heq ▸ Rat.floor_le q)
    subst hq
    simp [nearestEven]
  · simp only [nearestEven]
    split_ifs <;> omega

/-- Rounding a whole number gives a count again, unless it leaves the range. -/
theorem ofRat_natCast_cases (n : Nat) :
    ofRat (n : Rat) = .infinite false ∨ ∃ k, (1 ≤ n → 1 ≤ k) ∧ ofRat (n : Rat) = ofCount k := by
  rcases Nat.lt_or_ge exactBound n with hlarge | hsmall
  · have hwide : ¬ ((n : Rat).den = 1 ∧ (n : Rat).num.natAbs ≤ exactBound) := by simp; omega
    have hpos : (0 : Rat) < n := by exact_mod_cast Nat.zero_lt_of_lt hlarge
    have hround := natCast_le_rounded (Nat.le_refl _) hpos (by exact_mod_cast hlarge.le)
    have hspacing := spacing_natCast (Nat.le_of_lt hlarge)
    obtain ⟨m, hm⟩ : ∃ m, nearestEven ((n : Rat) / spacing n) = m := ⟨_, rfl⟩
    have hnonneg : 0 ≤ m := by
      have hquot : (((0 : Int)) : Rat) ≤ (n : Rat) / spacing n :=
        div_nonneg (by simp) (le_of_lt (spacing_pos _))
      exact hm ▸ le_nearestEven hquot
    have hcount : (m : Rat) * spacing n = ((m.toNat * 2 ^ (n.log2 - 52) : Nat) : Rat) := by
      have hcast : ((m.toNat : Nat) : Rat) = (m : Rat) := by
        rw [← Int.cast_natCast, Int.toNat_of_nonneg hnonneg]
      rw [hspacing]
      push_cast
      rw [hcast]
    rw [hm, hcount] at hround
    have hsign : decide ((n : Rat) < 0) = false := by simp
    simp only [ofRat, if_neg hwide, hm, hcount, hsign]
    split_ifs
    · exact Or.inl rfl
    · refine Or.inr ⟨_, fun _ => ?_, rfl⟩
      have hbound : exactBound ≤ m.toNat * 2 ^ (n.log2 - 52) := by exact_mod_cast hround
      exact le_trans (by decide) hbound
  · exact Or.inr ⟨n, id, ofRat_natCast hsmall⟩

theorem ofRat_le_zero {q : Rat} (h : q ≤ 0) : ofRat q ≤ ofCount 0 := by
  have hle {r : Rat} (hr : r ≤ 0) : finite r ≤ ofCount 0 := by
    change decide (r ≤ ((0 : Nat) : Rat)) = true
    simpa using hr
  rw [ofRat]
  split
  · exact hle h
  · next hwide =>
    have hnear : nearestEven (q / spacing q) ≤ 0 := by
      have hquot : q / spacing q ≤ ((0 : Int) : Rat) := by
        rw [Int.cast_zero]
        exact div_nonpos_of_nonpos_of_nonneg h (le_of_lt (spacing_pos q))
      exact nearestEven_le hquot
    have hrounded : (nearestEven (q / spacing q) : Rat) * spacing q ≤ 0 :=
      mul_nonpos_of_nonpos_of_nonneg (by exact_mod_cast hnear) (le_of_lt (spacing_pos q))
    have hneg : q < 0 := lt_of_le_of_ne h fun hzero => hwide (by rw [hzero]; decide)
    dsimp only
    split
    · rw [decide_eq_true hneg]
      rfl
    · exact hle hrounded

theorem lt_of_le_of_lt_ofCount {x : Number} {a b : Nat} (h : x ≤ ofCount a) (hab : a < b) :
    x < ofCount b := by
  rcases x with _ | negative | q
  · cases h
  · cases negative
    · cases h
    · rfl
  · have hq : q ≤ ((a : Nat) : Rat) := of_decide_eq_true h
    have hab' : ((a : Nat) : Rat) < b := by exact_mod_cast hab
    exact decide_eq_true (lt_of_le_of_lt hq hab')

theorem ofCount_sub_ofCount {a b : Nat} (le : b ≤ a) (h : a ≤ exactBound) :
    ofCount a - ofCount b = ofCount (a - b) := by
  have hdifference : ofCount a - ofCount b = ofRat ((a - b : Nat) : Rat) := by
    rw [Nat.cast_sub le, sub_eq_add_neg]
    rfl
  rw [hdifference, ofRat_natCast (by omega)]

/-- A difference compares with a positive count below 2^53 as it does before rounding. -/
theorem ofCount_sub_lt_iff {a b m : Nat} (pos : 0 < m) (h : m ≤ exactBound) :
    ofCount a - ofCount b < ofCount m ↔ a < b + m := by
  have hsub : ofCount a - ofCount b = ofRat ((a : Rat) - (b : Rat)) := by
    rw [sub_eq_add_neg]
    rfl
  rw [hsub]
  rcases Nat.le_total b a with hle | hle
  · rw [← Nat.cast_sub hle]
    rcases Nat.le_total (a - b) exactBound with hs | hs
    · rw [ofRat_natCast hs, ofCount_lt_ofCount]
      omega
    · have hlarge := not_lt_of_ofCount_le (exactBound_le_ofRat hs) h
      exact ⟨fun hlt => absurd hlt hlarge, fun hlt => by omega⟩
  · have hneg : (a : Rat) - (b : Rat) ≤ 0 := sub_nonpos.mpr (by exact_mod_cast hle)
    exact ⟨fun _ => by omega, fun _ => lt_of_le_of_lt_ofCount (ofRat_le_zero hneg) pos⟩

end DeviceReports.Number
