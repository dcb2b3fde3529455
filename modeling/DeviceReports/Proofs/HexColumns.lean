import DeviceReports.Proofs.ReadColumns
import Mathlib.Data.Int.ModEq
import Mathlib.Data.Nat.Log

/-!
# What a column in base 16 tells

A column in base 16 shows the integer part of a figure: that integer itself where it is not
negative, and otherwise what it leaves modulo 2^64. It has no digits but those of that number and
zeros before them, so two columns of one width are alike exactly if they show one number.
-/

set_option autoImplicit false

namespace DeviceReports

/-! ### The text of a number -/

theorem Decimal.length_toDigits {base : Nat} (two : 1 < base) (n : Nat) :
    (Nat.toDigits base n).length = Nat.log base n + 1 := by
  induction n using Nat.strong_induction_on with
  | _ n ih =>
    by_cases hlast : n < base
    · rw [Nat.toDigits_of_lt_base hlast, Nat.log_of_lt hlast]
      rfl
    · have hfewer : n / base < n := Nat.div_lt_self (by omega) two
      have hlog := Nat.log_of_one_lt_of_le two (not_lt.mp hlast)
      rw [Nat.toDigits_of_base_le two (not_lt.mp hlast), List.length_append, ih _ hfewer, hlog]
      rfl

namespace Text

/-- The digits of base 16, letters in lower case. -/
def hexAlphabet : Text := ofString "0123456789abcdef"

/-- A text of a number in base 16: digits alone, which denote the number, and as many of them as it
has, or `least` where that is more. A positive number has one digit more than the whole part of its
logarithm, and zero has one digit. -/
structure IsHex (t : Text) (n least : Nat) : Prop where
  digits : ∀ u ∈ t, u ∈ hexAlphabet
  length : t.length = max least (Nat.log 16 n + 1)
  value : Decimal.natural? 16 t.chars = some n

/-- The digits of a number with zeros before them up to a least count. -/
def paddedHex (n least : Nat) : Text :=
  ofChars (Decimal.zeros (least - (Nat.toDigits 16 n).length) ++ Nat.toDigits 16 n)

theorem paddedHex_graphic (n least : Nat) : paddedHex n least =
    (Decimal.zeros (least - (Nat.toDigits 16 n).length) ++ Nat.toDigits 16 n).map
      fun c => UInt16.ofNat c.toNat :=
  ofChars_graphic ((GraphicChars.zeros _).append (.toDigits (by decide) (by decide) n))

theorem digitChar_mem_hexAlphabet : ∀ d < 16, UInt16.ofNat d.digitChar.toNat ∈ hexAlphabet := by
  decide

theorem mem_hexAlphabet {n least : Nat} {u : UInt16} (h : u ∈ paddedHex n least) :
    u ∈ hexAlphabet := by
  rw [paddedHex_graphic] at h
  obtain ⟨c, hc, rfl⟩ := List.mem_map.mp h
  rcases List.mem_append.mp hc with hzero | hdigit
  · obtain ⟨-, rfl⟩ := List.mem_replicate.mp hzero
    exact digitChar_mem_hexAlphabet 0 (by decide)
  · obtain ⟨d, hd, rfl⟩ := Decimal.exists_digitChar (by decide) hdigit
    exact digitChar_mem_hexAlphabet d hd

theorem length_paddedHex (n least : Nat) :
    (paddedHex n least).length = max least (Nat.log 16 n + 1) := by
  rw [paddedHex_graphic, List.length_map, List.length_append, Decimal.zeros, List.length_replicate,
    Decimal.length_toDigits (by decide)]
  omega

theorem natural?_paddedHex (n least : Nat) :
    Decimal.natural? 16 (paddedHex n least).chars = some n := by
  rw [paddedHex, chars_ofChars]
  exact Decimal.natural?_toDigits (by decide) (by decide) _ n

theorem isHex_paddedHex (n least : Nat) : IsHex (paddedHex n least) n least :=
  ⟨fun _ => mem_hexAlphabet, length_paddedHex n least, natural?_paddedHex n least⟩

theorem paddedHex_inj {n m least : Nat} : paddedHex n least = paddedHex m least ↔ n = m := by
  constructor
  · intro h
    have hn := natural?_paddedHex n least
    rw [h, natural?_paddedHex] at hn
    exact (Option.some.inj hn).symm
  · rintro rfl
    rfl

end Text

/-! ### The number that a column shows -/

namespace Number

/-- The integer next to a rational on the side of zero. -/
def integerPart (q : Rat) : Int := if 0 ≤ q then ⌊q⌋ else ⌈q⌉

@[simp] theorem integerPart_intCast (n : Int) : integerPart n = n := by
  simp [integerPart]

theorem tdiv_num_den (q : Rat) : Int.tdiv q.num q.den = integerPart q := by
  rw [integerPart]
  split_ifs with hsign
  · rw [Int.tdiv_eq_ediv_of_nonneg (Rat.num_nonneg.mpr hsign), Rat.floor_def']
  · have hnum : 0 ≤ (-q).num := Rat.num_nonneg.mpr (by linarith)
    rw [← neg_neg q, Int.ceil_neg, Rat.floor_def', neg_neg, ← Int.tdiv_eq_ediv_of_nonneg hnum,
      Rat.neg_num, Rat.neg_den, Int.neg_tdiv, neg_neg]

theorem integerPart_of_fraction {q : Rat} (above : -1 < q) (nonpos : q ≤ 0) :
    integerPart q = 0 := by
  rw [integerPart]
  split_ifs with hsign
  · rw [le_antisymm nonpos hsign, Int.floor_zero]
  · exact Int.ceil_eq_zero_iff.mpr ⟨above, nonpos⟩

/-- An integer as a column in base 16 shows it: a negative one by its 64-bit word. -/
def unsigned (n : Int) : Nat := if n < 0 then (n % wordCount).toNat else n.toNat

theorem unsigned_of_nonneg {n : Int} (h : 0 ≤ n) : (unsigned n : Int) = n := by
  rw [unsigned, if_neg (by omega), Int.toNat_of_nonneg h]

theorem unsigned_of_neg {n : Int} (h : n < 0) : (unsigned n : Int) = n % 2 ^ 64 := by
  rw [unsigned, if_pos h, Int.toNat_of_nonneg (Int.emod_nonneg n (by decide))]
  rfl

theorem unsigned_eq_iff_of_neg {a b : Int} (ha : a < 0) (hb : b < 0) :
    unsigned a = unsigned b ↔ a ≡ b [ZMOD 2 ^ 64] := by
  rw [Int.ModEq, ← unsigned_of_neg ha, ← unsigned_of_neg hb, Int.natCast_inj]

theorem hexText?_finite (q : Rat) :
    (finite q).hexText? = some (hexDigits (unsigned (integerPart q))) := by
  rw [hexText?, tdiv_num_den, unsigned]
  split_ifs <;> rfl

end Number

namespace Column

open Number

theorem hex_finite (q : Rat) (d : Nat) :
    hex (.finite q) (.ofCount d) = .ok (Text.paddedHex (unsigned (integerPart q)) d) := by
  have hdigits : unitsOf (.ofCount d) = d := by
    simp [unitsOf, whole?, ofCount]
  rw [hex_of_hexText? (hexText?_finite q), hdigits]
  rfl

theorem hex_intCast_eq_iff (a b : Int) (d : Nat) :
    hex (.finite a) (.ofCount d) = hex (.finite b) (.ofCount d) ↔ unsigned a = unsigned b := by
  rw [hex_finite, hex_finite, Except.ok.injEq, Text.paddedHex_inj, integerPart_intCast,
    integerPart_intCast]

/-- Every finite figure has a column in base 16 of any count of digits. It denotes the integer part
of the figure where that is not negative and else what it leaves modulo 2^64; what lies between
minus one and zero gives zero. So columns of one digit count tell natural numbers apart, and
negative integers exactly as far as they differ modulo 2^64. -/
theorem hex_tells_integer_part (d : Nat) :
    (∀ q : Rat, ∃ t n, hex (.finite q) (.ofCount d) = .ok t ∧ t.IsHex n d ∧
      (0 ≤ integerPart q → (n : Int) = integerPart q) ∧
      (integerPart q < 0 → (n : Int) = integerPart q % 2 ^ 64) ∧
      (-1 < q → q ≤ 0 → n = 0)) ∧
    (∀ a b : Nat, hex (.finite a) (.ofCount d) = hex (.finite b) (.ofCount d) ↔ a = b) ∧
    ∀ a b : Int, a < 0 → b < 0 →
      (hex (.finite a) (.ofCount d) = hex (.finite b) (.ofCount d) ↔ a ≡ b [ZMOD 2 ^ 64]) := by
  refine ⟨?_, ?_, ?_⟩
  · intro q
    refine ⟨_, _, hex_finite q d, Text.isHex_paddedHex _ d, unsigned_of_nonneg, unsigned_of_neg, ?_⟩
    intro above nonpos
    rw [integerPart_of_fraction above nonpos]
    rfl
  · intro a b
    have hiff := hex_intCast_eq_iff a b d
    rw [Int.cast_natCast, Int.cast_natCast] at hiff
    rw [hiff]
    rfl
  · intro a b ha hb
    rw [hex_intCast_eq_iff, unsigned_eq_iff_of_neg ha hb]

/-- Minus 2^64 and minus 2^65 are both shown as zero. -/
theorem hex_of_wrapped_words :
    hex (.finite (-18446744073709551616 : Int)) (.ofCount 8) =
      hex (.finite (-36893488147419103232 : Int)) (.ofCount 8) :=
  ((hex_tells_integer_part 8).2.2 _ _ (by decide) (by decide)).mpr (by decide)

end Column

end DeviceReports
