import DeviceReports.Number.Power
import DeviceReports.Proofs.Counts

/-!
# Figures scaled by powers of two

A figure is a natural number below 2^53 times a power of two. Scaling it by a power of two leaves
the natural number alone, so nothing is rounded unless the power falls below the least one there is.
What is left then is next to nothing, before and after rounding alike, and has no whole part. A
chain of scalings therefore has the whole part that it would have without any rounding.
-/

set_option autoImplicit false

namespace DeviceReports.Number

/-- A value that a figure can have if it is not negative, but for the greatest power there is. -/
def IsMagnitude (q : Rat) : Prop :=
  ∃ (m : Nat) (e : Int), m < exactBound ∧ -1074 ≤ e ∧ q = m * (2 : Rat) ^ e

theorem IsMagnitude.nonneg {q : Rat} (h : IsMagnitude q) : 0 ≤ q := by
  obtain ⟨m, e, -, -, rfl⟩ := h
  positivity

theorem two_zpow_pos (e : Int) : (0 : Rat) < 2 ^ e := by positivity

theorem two_zpow_le {e f : Int} (h : e ≤ f) : (2 : Rat) ^ e ≤ 2 ^ f :=
  zpow_le_zpow_right₀ (by norm_num) h

theorem two_zpow_add (e f : Int) : (2 : Rat) ^ (e + f) = 2 ^ e * 2 ^ f :=
  zpow_add₀ (by norm_num) e f

theorem exactBound_eq : (exactBound : Rat) = 2 ^ (53 : Int) := by norm_num [exactBound]

/-- What is below a power in range is in range. -/
theorem lt_range {q : Rat} {e : Int} (h : q ≤ 2 ^ e) (high : e < 1024) :
    q < (2 : Rat) ^ (1024 : Nat) := by
  refine h.trans_lt ?_
  rw [← zpow_natCast]
  exact zpow_lt_zpow_right₀ (by norm_num) (by exact_mod_cast high)

/-! ### Rounding -/

section Rounding

variable {q : Rat}

/-- The exponent of the distance between neighbours. -/
def spacingExponent (q : Rat) : Int := max (binaryExponent q - 52) (-1074)

theorem spacing_eq (q : Rat) : spacing q = 2 ^ spacingExponent q := rfl

/-- The exponent of a positive rational is below that of a power of two it is below. -/
theorem binaryExponent_lt {j : Int} (pos : 0 < q) (h : q < 2 ^ j) : binaryExponent q < j := by
  have hpower : (2 : Rat) ^ binaryExponent q < 2 ^ j :=
    (two_zpow_binaryExponent_le pos).trans_lt h
  exact (zpow_lt_zpow_iff_right₀ (by norm_num)).mp hpower

/-- Rounding keeps within a multiple of the distance between neighbours. -/
theorem rounded_le {n : Nat} (h : q ≤ n * spacing q) :
    (nearestEven (q / spacing q) : Rat) * spacing q ≤ n * spacing q := by
  have hquotient : q / spacing q ≤ ((n : Int) : Rat) := by
    rw [div_le_iff₀ (spacing_pos q)]
    exact_mod_cast h
  have hnear : (nearestEven (q / spacing q) : Rat) ≤ n := by
    exact_mod_cast nearestEven_le hquotient
  exact mul_le_mul_of_nonneg_right hnear (spacing_pos q).le

theorem le_rounded {n : Nat} (h : n * spacing q ≤ q) :
    n * spacing q ≤ (nearestEven (q / spacing q) : Rat) * spacing q := by
  have hquotient : ((n : Int) : Rat) ≤ q / spacing q := by
    rw [le_div_iff₀ (spacing_pos q)]
    exact_mod_cast h
  have hnear : (n : Rat) ≤ nearestEven (q / spacing q) := by
    exact_mod_cast le_nearestEven hquotient
  exact mul_le_mul_of_nonneg_right hnear (spacing_pos q).le

/-- What is rounded to something in range. -/
theorem ofRat_eq_finite (wide : ¬(q.den = 1 ∧ q.num.natAbs ≤ exactBound))
    (nonneg : 0 ≤ (nearestEven (q / spacing q) : Rat) * spacing q)
    (range : (nearestEven (q / spacing q) : Rat) * spacing q < (2 : Rat) ^ (1024 : Nat)) :
    ofRat q = .finite ((nearestEven (q / spacing q) : Rat) * spacing q) := by
  rw [ofRat, if_neg wide]
  dsimp only
  have habs : ((nearestEven (q / spacing q) : Rat) * spacing q).abs =
      (nearestEven (q / spacing q) : Rat) * spacing q := Rat.abs_of_nonneg nonneg
  rw [habs, if_neg (not_le.mpr range)]

/-- A magnitude in range is a value itself. -/
theorem ofRat_magnitude (h : IsMagnitude q) (range : q < (2 : Rat) ^ (1024 : Nat)) :
    ofRat q = .finite q := by
  by_cases hwide : q.den = 1 ∧ q.num.natAbs ≤ exactBound
  · rw [ofRat, if_pos hwide]
  have hpos : 0 < q := by
    refine lt_of_le_of_ne h.nonneg fun hzero => hwide ?_
    rw [← hzero]
    decide
  obtain ⟨m, e, hm, he, hq⟩ := h
  have hlt : q < 2 ^ (53 + e) := by
    have hm' : (m : Rat) < 2 ^ (53 : Int) := exactBound_eq ▸ Nat.cast_lt.mpr hm
    rw [hq, two_zpow_add]
    exact mul_lt_mul_of_pos_right hm' (two_zpow_pos e)
  have hexponent : spacingExponent q ≤ e := by
    have := binaryExponent_lt hpos hlt
    unfold spacingExponent
    omega
  -- neighbours are no further apart than the power of the magnitude, so it is among them
  obtain ⟨j, hj⟩ : ∃ j : Nat, e = j + spacingExponent q :=
    ⟨(e - spacingExponent q).toNat, by omega⟩
  have hgrid : q = ((m * 2 ^ j : Nat) : Rat) * spacing q := by
    have hpower : (2 : Rat) ^ e = 2 ^ j * spacing q := by
      rw [spacing_eq, ← zpow_natCast, ← two_zpow_add, ← hj]
    rw [Nat.cast_mul, Nat.cast_pow, Nat.cast_ofNat, mul_assoc, ← hpower, ← hq]
  have hrounded : (nearestEven (q / spacing q) : Rat) * spacing q = q := by
    refine le_antisymm ?_ ?_
    · exact (rounded_le hgrid.le).trans_eq hgrid.symm
    · exact hgrid.le.trans (le_rounded hgrid.ge)
  rw [ofRat_eq_finite hwide (hrounded.symm ▸ hpos.le) (hrounded.symm ▸ range), hrounded]

/-- Rounding does not cross a power of two from below. -/
theorem ofRat_le_zpow {j : Int} (nonneg : 0 ≤ q) (h : q ≤ 2 ^ j) (low : -1074 ≤ j)
    (high : j < 1024) :
    ∃ y, ofRat q = .finite y ∧ 0 ≤ y ∧ y ≤ 2 ^ j := by
  by_cases hwide : q.den = 1 ∧ q.num.natAbs ≤ exactBound
  · exact ⟨q, by rw [ofRat, if_pos hwide], nonneg, h⟩
  have hpos : 0 < q := by
    refine lt_of_le_of_ne nonneg fun hzero => hwide ?_
    rw [← hzero]
    decide
  have hexponent : spacingExponent q ≤ j := by
    have hdouble : q < 2 ^ (j + 1) := h.trans_lt (zpow_lt_zpow_right₀ (by norm_num) (by omega))
    have := binaryExponent_lt hpos hdouble
    unfold spacingExponent
    omega
  obtain ⟨i, hi⟩ : ∃ i : Nat, j = i + spacingExponent q :=
    ⟨(j - spacingExponent q).toNat, by omega⟩
  have hgrid : (2 : Rat) ^ j = ((2 ^ i : Nat) : Rat) * spacing q := by
    rw [spacing_eq, hi, two_zpow_add]
    push_cast
    rw [zpow_natCast]
  have hle := rounded_le (hgrid ▸ h)
  have hge : 0 ≤ (nearestEven (q / spacing q) : Rat) * spacing q := by
    have := le_rounded (q := q) (n := 0) (by simpa using nonneg)
    simpa using this
  have hlimit := hle.trans_eq hgrid.symm
  exact ⟨_, ofRat_eq_finite hwide hge (lt_range hlimit high), hge, hlimit⟩

end Rounding

/-! ### Scaling -/

/-- A value that stands for a quantity: it is that quantity, or both are at most a power of two. -/
def StandsFor (j : Int) (x q : Rat) : Prop :=
  (x = q ∧ IsMagnitude q) ∨ (0 ≤ x ∧ x ≤ 2 ^ j ∧ 0 ≤ q ∧ q ≤ 2 ^ j)

namespace StandsFor

variable {x q : Rat} {i j l : Int}

theorem of_magnitude (h : IsMagnitude q) (j : Int) : StandsFor j q q := .inl ⟨rfl, h⟩

theorem nonneg (h : StandsFor j x q) : 0 ≤ x ∧ 0 ≤ q := by
  rcases h with ⟨rfl, hmagnitude⟩ | ⟨hx, -, hq, -⟩
  · exact ⟨hmagnitude.nonneg, hmagnitude.nonneg⟩
  · exact ⟨hx, hq⟩

/-- What is next to nothing still is after rounding. -/
theorem ofRat (low : -1074 ≤ l) (high : l < 1024) (hx : 0 ≤ x) (hxl : x ≤ 2 ^ l) (hq : 0 ≤ q)
    (hql : q ≤ 2 ^ l) : ∃ y, Number.ofRat x = .finite y ∧ StandsFor l y q := by
  obtain ⟨y, hy, hnonneg, hle⟩ := ofRat_le_zpow hx hxl low high
  exact ⟨y, hy, .inr ⟨hnonneg, hle, hq, hql⟩⟩

/-- Scaling by a power of two rounds only what is next to nothing. -/
theorem scaled (h : StandsFor j x q) (coarser : j + i ≤ l) (low : -1022 ≤ l) (high : l < 1024)
    (range : q * 2 ^ i < (2 : Rat) ^ (1024 : Nat)) :
    ∃ y, Number.ofRat (x * 2 ^ i) = .finite y ∧ StandsFor l y (q * 2 ^ i) := by
  have hpower := two_zpow_pos i
  obtain ⟨hxnonneg, hqnonneg⟩ := h.nonneg
  rcases h with ⟨rfl, m, e, hm, he, hx⟩ | ⟨-, hxj, -, hqj⟩
  · have hscaled : x * 2 ^ i = m * (2 : Rat) ^ (e + i) := by rw [hx, two_zpow_add, mul_assoc]
    by_cases hexponent : -1074 ≤ e + i
    · have hmagnitude : IsMagnitude (x * 2 ^ i) := ⟨m, e + i, hm, hexponent, hscaled⟩
      exact ⟨_, ofRat_magnitude hmagnitude range, of_magnitude hmagnitude l⟩
    · have hnonneg : 0 ≤ x * 2 ^ i := mul_nonneg hxnonneg hpower.le
      have hsmall : x * 2 ^ i ≤ 2 ^ l := by
        have hm' : (m : Rat) ≤ 2 ^ (53 : Int) := exactBound_eq ▸ Nat.cast_le.mpr hm.le
        calc x * 2 ^ i = m * (2 : Rat) ^ (e + i) := hscaled
          _ ≤ 2 ^ (53 : Int) * 2 ^ (e + i) :=
            mul_le_mul_of_nonneg_right hm' (two_zpow_pos _).le
          _ = 2 ^ (53 + (e + i)) := (two_zpow_add _ _).symm
          _ ≤ 2 ^ l := two_zpow_le (by omega)
      exact StandsFor.ofRat (by omega) high hnonneg hsmall hnonneg hsmall
  · have hsmall {r : Rat} (hr : r ≤ 2 ^ j) : r * 2 ^ i ≤ 2 ^ l :=
      calc r * 2 ^ i ≤ 2 ^ j * 2 ^ i := mul_le_mul_of_nonneg_right hr hpower.le
        _ = 2 ^ (j + i) := (two_zpow_add j i).symm
        _ ≤ 2 ^ l := two_zpow_le coarser
    exact StandsFor.ofRat (by omega) high (mul_nonneg hxnonneg hpower.le) (hsmall hxj)
      (mul_nonneg hqnonneg hpower.le) (hsmall hqj)

/-- A value and what it stands for have one whole part. -/
theorem floor_eq (h : StandsFor j x q) (fraction : j < 0) : ⌊x⌋₊ = ⌊q⌋₊ := by
  have hone : (2 : Rat) ^ j < 1 := zpow_lt_one_of_neg₀ (by norm_num) fraction
  rcases h with ⟨rfl, -⟩ | ⟨-, hxj, -, hqj⟩
  · rfl
  · rw [Nat.floor_eq_zero.mpr (hxj.trans_lt hone), Nat.floor_eq_zero.mpr (hqj.trans_lt hone)]

end StandsFor

/-! ### Powers and whole parts -/

theorem floor_finite {x : Rat} (nonneg : 0 ≤ x) : (finite x).floor = ofCount ⌊x⌋₊ := by
  have hfloor : ((⌊x⌋₊ : Int) : Rat) = x.floor := by
    rw [Int.natCast_floor_eq_floor nonneg]
    rfl
  rw [floor, ofCount, ← hfloor, Int.cast_natCast]

theorem trunc_finite {x : Rat} (nonneg : 0 ≤ x) : (finite x).trunc = ofCount ⌊x⌋₊ := by
  have hnum : 0 ≤ x.num := Rat.num_nonneg.mpr nonneg
  rw [← floor_finite nonneg, trunc, floor, Rat.floor_def, Int.tdiv_eq_ediv_of_nonneg hnum]

/-- The power of an integer is the power of two, unless that is below the least value. -/
theorem twoTo_intCast {z : Int} (high : z < 1024) :
    ∃ t, twoTo (.finite z) = .finite t ∧
      (t = 2 ^ z ∧ -1074 ≤ z ∨ 0 ≤ t ∧ t ≤ 2 ^ (-1074 : Int) ∧ z < -1074) := by
  have hlarge : ¬ (1024 : Rat) ≤ z := not_le.mpr (by exact_mod_cast high)
  rw [twoTo, if_neg hlarge, if_pos (Rat.den_intCast z), Rat.num_intCast]
  split_ifs with hsmall
  · have hz : z < -1075 := by exact_mod_cast hsmall
    exact ⟨0, rfl, .inr ⟨le_refl 0, (two_zpow_pos _).le, by omega⟩⟩
  by_cases hz : -1074 ≤ z
  · have hmagnitude : IsMagnitude (2 ^ z) := ⟨1, z, by decide, hz, by simp⟩
    exact ⟨_, ofRat_magnitude hmagnitude (lt_range (le_refl _) high), .inl ⟨rfl, hz⟩⟩
  · obtain ⟨t, ht, hnonneg, hle⟩ := ofRat_le_zpow (two_zpow_pos z).le
      (two_zpow_le (f := -1074) (by omega)) (by decide) (by decide)
    exact ⟨t, ht, .inr ⟨hnonneg, hle, by omega⟩⟩

end DeviceReports.Number
