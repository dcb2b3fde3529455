import DeviceReports.Document.Schema
import DeviceReports.Number.Reading
import DeviceReports.Proofs.PlainText
import Mathlib.Data.List.TakeWhile

/-!
# Keys made of digits

A key that is made of digits reads as the double nearest to its decimal value. Below 2^53 that is
the value itself, and no other value reads as it, however many digits it has.
-/

set_option autoImplicit false

namespace DeviceReports

/-- The natural number that a key of digits denotes. -/
def decimalValue (key : String) : Nat := (Decimal.natural? 10 key.toList).getD 0

namespace DigitKeys

variable {cs : List Char} {c : Char} {m n : Nat}

theorem toNat_of_isDigit (h : c.isDigit = true) : 48 ≤ c.toNat ∧ c.toNat ≤ 57 := by
  simp only [Char.isDigit, Bool.and_eq_true, decide_eq_true_eq] at h
  exact ⟨UInt32.le_iff_toNat_le.mp h.1, UInt32.le_iff_toNat_le.mp h.2⟩

theorem ne_of_isDigit (h : c.isDigit = true) {d : Char} (other : d.isDigit = false) : c ≠ d := by
  rintro rfl
  rw [other] at h
  cases h

theorem graphic_digits (digits : ∀ c ∈ cs, c.isDigit = true) : GraphicChars cs := by
  intro c hc
  obtain ⟨hlow, hhigh⟩ := toNat_of_isDigit (digits c hc)
  exact ⟨by omega, by omega⟩

theorem notBlank_of_graphic (h : GraphicCode c.toNat) : Text.isBlank c = false := by
  obtain ⟨hlow, hhigh⟩ := h
  have hspace : c ≠ ' ' := by
    rintro rfl
    exact absurd hlow (by decide)
  simp only [Text.isBlank, Bool.or_eq_false_iff, Bool.and_eq_false_iff, decide_eq_false_iff_not]
  refine ⟨⟨⟨⟨⟨⟨⟨⟨⟨⟨hspace, ?_⟩, ?_⟩, ?_⟩, ?_⟩, ?_⟩, ?_⟩, ?_⟩, ?_⟩, ?_⟩, ?_⟩ <;> omega

theorem dropWhile_graphic (graphic : GraphicChars cs) : cs.dropWhile Text.isBlank = cs := by
  cases cs with
  | nil => rfl
  | cons c rest =>
    rw [List.dropWhile_cons, notBlank_of_graphic (graphic c List.mem_cons_self)]
    rfl

/-- Graphic characters are no blanks, so none of them is dropped. -/
theorem trimBlanks_graphic (graphic : GraphicChars cs) : Text.trimBlanks cs = cs := by
  have hreverse : GraphicChars cs.reverse := fun c hc => graphic c (List.mem_reverse.mp hc)
  rw [Text.trimBlanks, dropWhile_graphic graphic, dropWhile_graphic hreverse, List.reverse_reverse]

theorem digit?_of_isDigit (h : c.isDigit = true) : ∃ d, Decimal.digit? 10 c = some d := by
  obtain ⟨hlow, hhigh⟩ := toNat_of_isDigit h
  have hbelow : c.toNat - '0'.toNat < 10 := by
    have : '0'.toNat = 48 := rfl
    omega
  refine ⟨c.toNat - '0'.toNat, ?_⟩
  rw [Decimal.digit?, if_pos h]
  exact if_pos hbelow

theorem natural?_digits (digits : ∀ c ∈ cs, c.isDigit = true) :
    ∃ m, Decimal.natural? 10 cs = some m := by
  have hfrom (start : Nat) : ∃ m, cs.foldl
      (fun acc c => do pure ((← acc) * 10 + (← Decimal.digit? 10 c))) (some start) = some m := by
    induction cs generalizing start with
    | nil => exact ⟨start, rfl⟩
    | cons c rest ih =>
      obtain ⟨d, hd⟩ := digit?_of_isDigit (digits c List.mem_cons_self)
      rw [List.foldl_cons, hd]
      exact ih (fun c hc => digits c (List.mem_cons_of_mem _ hc)) (start * 10 + d)
  exact hfrom 0

theorem unsigned?_digits (digits : ∀ c ∈ cs, c.isDigit = true) (nonempty : cs ≠ []) :
    Decimal.unsigned? cs = (Decimal.natural? 10 cs).map fun m => Decimal.ofScientific m 0 := by
  have htake : cs.takeWhile Char.isDigit = cs := List.takeWhile_eq_self_iff.mpr digits
  have hdrop : cs.dropWhile Char.isDigit = [] := List.dropWhile_eq_nil_iff.mpr digits
  obtain ⟨m, hm⟩ := natural?_digits digits
  rw [Decimal.unsigned?, htake, hdrop]
  dsimp only
  rw [List.append_nil, hm]
  simp [nonempty, Decimal.exponent?]

theorem marked?_digits (digits : ∀ c ∈ cs, c.isDigit = true) : Number.marked? cs = none := by
  rw [Number.marked?.eq_def]
  split
  · next c ds =>
    have hc : c.isDigit = true := digits c (by simp)
    have hbase : Number.markedBase? c = none := by
      simp [Number.markedBase?, ne_of_isDigit hc (show 'x'.isDigit = false from rfl),
        ne_of_isDigit hc (show 'X'.isDigit = false from rfl),
        ne_of_isDigit hc (show 'o'.isDigit = false from rfl),
        ne_of_isDigit hc (show 'O'.isDigit = false from rfl),
        ne_of_isDigit hc (show 'b'.isDigit = false from rfl),
        ne_of_isDigit hc (show 'B'.isDigit = false from rfl)]
    rw [hbase]
    rfl
  · rfl

theorem magnitude?_digits (digits : ∀ c ∈ cs, c.isDigit = true) (nonempty : cs ≠ []) :
    Number.magnitude? cs = (Decimal.natural? 10 cs).map fun m => Decimal.ofScientific m 0 := by
  rw [← unsigned?_digits digits nonempty]
  refine if_neg fun h => ?_
  have hword : 'I' ∈ cs := by
    rw [h]
    decide
  exact absurd (digits 'I' hword) (by decide)

theorem signed?_digits (digits : ∀ c ∈ cs, c.isDigit = true) (nonempty : cs ≠ []) :
    Number.signed? cs = (Decimal.natural? 10 cs).map fun m => Decimal.ofScientific m 0 := by
  rw [← magnitude?_digits digits nonempty, Number.signed?.eq_def]
  split
  · exact absurd (digits '-' List.mem_cons_self) (by decide)
  · exact absurd (digits '+' List.mem_cons_self) (by decide)
  · rfl

theorem ofCount_injective : Function.Injective Number.ofCount := by
  intro a b h
  have hab : (a : Rat) = b := Number.finite.inj h
  exact_mod_cast hab

/-- Rounding does not take a whole value below the power of two that it starts with. -/
theorem pow_le_rounded {k : Nat} (exact : 53 < k) (wide : 2 ^ k ≤ m) :
    Number.exactBound < m ∧
      (2 : Rat) ^ k ≤
        (Number.nearestEven ((m : Rat) / Number.spacing m) : Rat) * Number.spacing m := by
  have hbound : Number.exactBound = 2 ^ 53 := by decide
  have hlarge : Number.exactBound < m := by
    rw [hbound]
    exact lt_of_lt_of_le (Nat.pow_lt_pow_right (by decide) exact) wide
  have hzero : m ≠ 0 := Nat.ne_zero_of_lt hlarge
  have hlog : k ≤ m.log2 := (Nat.le_log2 hzero).mpr wide
  have hspacing : Number.spacing m = (2 ^ (m.log2 - 52) : Nat) := by
    rw [Number.spacing_natCast hlarge.le, Nat.cast_pow, Nat.cast_ofNat]
  have hquotient : (((2 ^ 52 : Nat) : Int) : Rat) ≤ (m : Rat) / Number.spacing m := by
    rw [le_div_iff₀ (Number.spacing_pos _), hspacing, Int.cast_natCast, ← Nat.cast_mul,
      ← pow_add, Nat.add_sub_cancel' (by omega)]
    exact_mod_cast Nat.log2_self_le hzero
  have hnearest : ((2 ^ 52 : Nat) : Rat) ≤
      (Number.nearestEven ((m : Rat) / Number.spacing m) : Rat) := by
    exact_mod_cast Number.le_nearestEven hquotient
  refine ⟨hlarge, ?_⟩
  calc (2 : Rat) ^ k ≤ (2 ^ m.log2 : Nat) := by
        exact_mod_cast Nat.pow_le_pow_right (by decide) hlog
    _ = (2 ^ 52 : Nat) * Number.spacing m := by
        rw [hspacing, ← Nat.cast_mul, ← pow_add, Nat.add_sub_cancel' (by omega)]
    _ ≤ _ := mul_le_mul_of_nonneg_right hnearest (Number.spacing_pos _).le

/-- A whole value from 2^1024 on is rounded to infinity. -/
theorem ofNat_wide (wide : 2 ^ 1024 ≤ m) : Number.ofNat m = .infinite false := by
  obtain ⟨hlarge, hrounded⟩ := pow_le_rounded (by decide) wide
  have hinexact : ¬ ((m : Rat).den = 1 ∧ (m : Rat).num.natAbs ≤ Number.exactBound) := by
    simp
    omega
  have hsign : decide ((m : Rat) < 0) = false := by simp
  simp only [Number.ofNat, Number.ofRat, if_neg hinexact, hsign]
  rw [Rat.abs_of_nonneg (le_trans (by positivity) hrounded)]
  exact if_pos hrounded

/-- Whole values are rounded to the nearest double, those with very many digits without a look at
the digits. -/
theorem ofScientific_zero (m : Nat) : Decimal.ofScientific m 0 = .ofNat m := by
  rw [Decimal.ofScientific]
  by_cases hzero : m = 0
  · subst hzero
    exact (Number.ofRat_natCast (Nat.zero_le _)).symm
  · rw [if_neg (by omega)]
    split
    · next hlong =>
      have hdigits : ¬ Decimal.digitCount m ≤ 4 * 100 := by omega
      have hfew {k : Nat} (pos : 0 < k) (h : m < 10 ^ k) : Decimal.digitCount m ≤ k :=
        (Nat.length_toDigits_le_iff (by decide) pos).mpr h
      have hpower : 10 ^ (4 * 100) ≤ m := not_lt.mp fun h => hdigits (hfew (by decide) h)
      have hwide : 2 ^ 1024 ≤ 10 ^ (4 * 100) := calc
        2 ^ 1024 ≤ 2 ^ (11 * 100) := pow_le_pow_right₀ (by decide) (by decide)
        _ = (2 ^ 11) ^ 100 := pow_mul 2 11 100
        _ ≤ (10 ^ 4) ^ 100 := pow_le_pow_left₀ (by decide) (by decide) 100
        _ = 10 ^ (4 * 100) := (pow_mul 10 4 100).symm
      exact (ofNat_wide (hwide.trans hpower)).symm
    · simp [Decimal.Figure.value, Number.ofNat]

/-- A key of digits reads as the double nearest to its decimal value. -/
theorem ofText_digits {key : String} (digits : Schema.isDigits key = true) :
    Number.ofText key = .ofNat (decimalValue key) := by
  obtain ⟨hsome, hall⟩ := (Bool.and_eq_true _ _).mp digits
  have hdigits : ∀ c ∈ key.toList, c.isDigit = true := List.all_eq_true.mp hall
  have hnonempty : key.toList ≠ [] := by
    intro h
    simp_all
  obtain ⟨m, hm⟩ := natural?_digits hdigits
  have hread : Number.ofText key =
      ((Number.marked? key.toList).orElse fun _ => Number.signed? key.toList).getD .nan := by
    rw [Number.ofText, trimBlanks_graphic (graphic_digits hdigits)]
    split
    · next h => exact absurd h hnonempty
    · rfl
  rw [hread, marked?_digits hdigits, signed?_digits hdigits hnonempty, decimalValue, hm]
  exact ofScientific_zero m

/-- Below 2^53 a whole value is a double of its own, and no other value is rounded to it. -/
theorem ofNat_eq_ofCount_iff (small : n < Number.exactBound) :
    Number.ofNat m = .ofCount n ↔ m = n := by
  rcases Nat.lt_or_ge Number.exactBound m with hlarge | hexact
  · have hrounded : Number.ofCount Number.exactBound ≤ .ofNat m :=
      Number.exactBound_le_ofRat hlarge.le
    constructor
    · intro h
      rw [h, Number.ofCount_le_ofCount] at hrounded
      omega
    · intro h
      omega
  · rw [Number.ofNat_eq_ofCount hexact]
    exact ofCount_injective.eq_iff

end DigitKeys

end DeviceReports
