import DeviceReports.Proofs.SettingsKeys
import Mathlib.Tactic.NormNum

/-!
# Page sizes

A page size is checked by a bit test: it must share no bit with its predecessor. The test sees
32-bit words only, so what it tells of an integer is told of its remainder modulo 2^32. Up to
2^32 the page sizes that pass are the powers of two; beyond it others pass as well, and they are
accepted.
-/

set_option autoImplicit false

namespace DeviceReports

namespace Number

theorem ofRat_intCast {n : Int} (h : n.natAbs ≤ exactBound) : ofRat (n : Rat) = .finite n := by
  simp [ofRat, h]

theorem word32_intCast (n : Int) : (finite (n : Rat)).word32 = Int32.ofInt n := by
  simp [word32]

/-- An integer that is zero or a power of two as a word of 32 bits. -/
def PowerInWord (n : Int) : Prop := n % 2 ^ 32 = 0 ∨ ∃ k : Nat, n % 2 ^ 32 = 2 ^ k

/-- The words of an integer and its predecessor share a bit unless the integer is zero or a power
of two as a word. -/
theorem and_pred_eq_zero_iff (n : Int) :
    Int32.ofInt n &&& Int32.ofInt (n - 1) = 0 ↔ PowerInWord n := by
  have hbits : Int32.ofInt n &&& Int32.ofInt (n - 1) = 0 ↔
      (n % 2 ^ 32).toNat &&& ((n - 1) % 2 ^ 32).toNat = 0 := by
    rw [← Int32.toBitVec_inj, Int32.toBitVec_and, Int32.toBitVec_ofInt, Int32.toBitVec_ofInt,
      ← BitVec.toNat_inj, BitVec.toNat_and, BitVec.toNat_ofInt, BitVec.toNat_ofInt]
    rfl
  rw [hbits]
  obtain ⟨w, hw⟩ : ∃ w : Nat, n % 2 ^ 32 = w :=
    ⟨(n % 2 ^ 32).toNat, by rw [Int.toNat_of_nonneg (Int.emod_nonneg _ (by decide))]⟩
  rw [PowerInWord, hw, Int.toNat_natCast]
  by_cases hzero : w = 0
  · simp [hzero]
  · have hpred : ((n - 1) % 2 ^ 32).toNat = w - 1 := by omega
    rw [hpred, Nat.and_sub_one_eq_zero_iff_isPowerOfTwo hzero, Nat.isPowerOfTwo]
    constructor
    · rintro ⟨k, hk⟩
      exact Or.inr ⟨k, by exact_mod_cast hk⟩
    · rintro (habsent | ⟨k, hk⟩)
      · exact absurd (by exact_mod_cast habsent) hzero
      · exact ⟨k, by exact_mod_cast hk⟩

/-- The bit test of an integer whose predecessor is not rounded. -/
theorem hasSingleBit_intCast {n : Int} (exact : (n - 1).natAbs ≤ exactBound) :
    (finite (n : Rat)).hasSingleBit = true ↔ 0 < n ∧ PowerInWord n := by
  have hpred : finite (n : Rat) - 1 = finite ((n - 1 : Int) : Rat) := by
    rw [← ofRat_intCast exact, Int.cast_sub, sub_eq_add_neg]
    rfl
  have hpositive : (0 : Number) < finite (n : Rat) ↔ 0 < n := by
    change decide ((0 : Rat) < n) = true ↔ _
    simp
  simp only [hasSingleBit, hpred, word32_intCast, Bool.and_eq_true, decide_eq_true_eq, beq_iff_eq,
    hpositive, and_pred_eq_zero_iff]

theorem powerInWord_two_pow (k : Nat) : PowerInWord (2 ^ k) := by
  rcases Nat.lt_or_ge k 32 with hsmall | hlarge
  · have hbelow : (2 : Int) ^ k < 2 ^ 32 := by
      have hpow : 2 ^ k < 2 ^ 32 := Nat.pow_lt_pow_right (by decide) hsmall
      exact_mod_cast hpow
    exact Or.inr ⟨k, Int.emod_eq_of_lt (by positivity) hbelow⟩
  · exact Or.inl (Int.emod_eq_zero_of_dvd (pow_dvd_pow 2 hlarge))

/-- An integer that a word holds is a power of two as a word when it is one. -/
theorem exists_two_pow_of_le {n : Int} (positive : 0 < n) (le : n ≤ 2 ^ 32)
    (power : PowerInWord n) : ∃ k : Nat, n = 2 ^ k := by
  rcases eq_or_lt_of_le le with rfl | hbelow
  · exact ⟨32, rfl⟩
  · have hself : n % 2 ^ 32 = n := Int.emod_eq_of_lt positive.le hbelow
    rcases power with hzero | ⟨k, hk⟩
    · omega
    · exact ⟨k, hself.symm.trans hk⟩

end Number

namespace Settings

open Number

variable {machine : String}

/-- A settings document that gives a page size alone. -/
def pageDocument (n : Int) : Value := .record [("pageSize", .number (.finite n))]

theorem keysChecked_pageDocument {n : Int} (safe : n.natAbs < exactBound) :
    KeysChecked (pageDocument n) ↔ 256 ≤ n ∧ PowerInWord n := by
  have hpage : (pageDocument n).field "pageSize" = .number (.finite n) := rfl
  have hbit : (finite (n : Rat)).hasSingleBit = true ↔ 0 < n ∧ PowerInWord n :=
    hasSingleBit_intCast (by omega)
  constructor
  · intro checked
    rcases checked.pageSize with habsent | ⟨m, hm, hleast, hsingle⟩
    · rw [hpage] at habsent
      cases habsent
    · have hcount : finite (n : Rat) = .ofCount m := Value.number.inj (hpage.symm.trans hm)
      have hn : (n : Rat) = ((m : Int) : Rat) := Number.finite.inj hcount
      rw [← hcount] at hsingle
      exact ⟨by have := Int.cast_injective hn; omega, (hbit.mp hsingle).2⟩
  · rintro ⟨hleast, hpower⟩
    have hcount : finite (n : Rat) = .ofCount n.toNat := finite_eq_ofCount (by omega)
    refine ⟨⟨_, rfl, ?_⟩, Or.inr ⟨n.toNat, ?_, by omega, ?_⟩, Or.inl rfl, Or.inl rfl, Or.inl rfl,
      Or.inl rfl, Or.inl rfl, Or.inl rfl⟩
    · intro f hf
      obtain rfl := List.mem_singleton.mp hf
      exact List.mem_cons_self
    · rw [hpage, hcount]
    · rw [← hcount]
      exact hbit.mpr ⟨by omega, hpower⟩

/-- The limits that a page size stands for keep the margin. -/
theorem margin_pageDocument {n : Int} (safe : n.natAbs < exactBound) (least : 256 ≤ n) :
    ¬ (ofValue machine (pageDocument n)).bufferCapacity -
      (ofValue machine (pageDocument n)).sizeLimit < margin := by
  obtain ⟨m, rfl⟩ := Int.eq_ofNat_of_zero_le (by omega : 0 ≤ n)
  have hlimit : (ofValue machine (pageDocument m)).sizeLimit = .ofCount (m - margin) := by
    change ofCount m - ofNat margin = _
    rw [ofNat_eq_ofCount (by decide), ofCount_sub_ofCount (by unfold margin; omega) (by omega)]
  have hcapacity : (ofValue machine (pageDocument m)).bufferCapacity = .ofCount m := rfl
  rw [hlimit, hcapacity, ofNat_eq_ofCount (by decide), ofCount_sub_lt_iff (by decide) (by decide)]
  have hmargin : margin ≤ m := le_trans (by decide) (Int.ofNat_le.mp least)
  omega

theorem resolve_pageDocument_iff {n : Int} (safe : n.natAbs < exactBound) :
    (∃ s, resolve machine (pageDocument n) = .ok s) ↔ 256 ≤ n ∧ PowerInWord n := by
  rw [← keysChecked_pageDocument safe]
  constructor
  · rintro ⟨s, hs⟩
    exact (resolve_ok_iff.mp hs).1
  · intro checked
    have hleast := ((keysChecked_pageDocument safe).mp checked).1
    exact ⟨_, resolve_ok_iff.mpr ⟨checked, rfl, margin_pageDocument safe hleast⟩⟩

/-- A safe integer is accepted as page size when it is at least 256 and as a 32-bit word zero or a
power of two. So all powers of two from 256 on are accepted, and up to 2^32 nothing else is. -/
theorem page_size_accepted (machine : String) {n : Int} (safe : n.natAbs < exactBound) :
    ((∃ s, resolve machine (pageDocument n) = .ok s) ↔ 256 ≤ n ∧ PowerInWord n) ∧
      (256 ≤ n → (∃ k : Nat, n = 2 ^ k) → ∃ s, resolve machine (pageDocument n) = .ok s) ∧
      (n ≤ 2 ^ 32 →
        ((∃ s, resolve machine (pageDocument n) = .ok s) ↔ 256 ≤ n ∧ ∃ k : Nat, n = 2 ^ k)) := by
  rw [resolve_pageDocument_iff safe]
  refine ⟨Iff.rfl, ?_, ?_⟩
  · rintro hleast ⟨k, rfl⟩
    exact ⟨hleast, powerInWord_two_pow k⟩
  · intro hword
    refine and_congr_right fun hleast => ⟨?_, ?_⟩
    · exact exists_two_pow_of_le (by omega) hword
    · rintro ⟨k, rfl⟩
      exact powerInWord_two_pow k

/-- Three times 2^32 is accepted: as a word it is zero. -/
theorem page_size_zero_word : (12884901888 : Int).natAbs < exactBound ∧
    ∃ s, resolve "x64" (pageDocument 12884901888) = .ok s :=
  ⟨by decide, (page_size_accepted _ (by decide)).1.mpr ⟨by decide, Or.inl (by decide)⟩⟩

/-- 2^32 + 1 is accepted, for as a word it is 1, and it is no power of two. -/
theorem odd_page_size_accepted :
    (∃ s, resolve "x64" (pageDocument 4294967297) = .ok s) ∧
      ¬ ∃ k : Nat, (4294967297 : Int) = 2 ^ k := by
  constructor
  · exact (resolve_pageDocument_iff (by decide)).mpr ⟨by decide, Or.inr ⟨0, by decide⟩⟩
  · rintro ⟨k, hk⟩
    have hpow : 2 ^ k = 4294967297 := by exact_mod_cast hk.symm
    have hlow : 32 < k := (Nat.pow_lt_pow_iff_right (by decide : 1 < 2)).mp (by omega)
    have hhigh : 2 ^ 33 ≤ 2 ^ k := Nat.pow_le_pow_right (by decide) hlow
    omega

end Settings

end DeviceReports
