import DeviceReports.Text.Units
import Mathlib.Tactic.Common

/-!
# Texts by their units

The units of a text that is made of characters tell these characters: none of the halves that a
character is written with stands alone. So the order of two strings by units, the first unit that
differs deciding, is a strict order in which only equal strings are unordered. It is not the order
by characters, for halves come before the units of some characters that need one unit only.
-/

set_option autoImplicit false

namespace DeviceReports.Text

/-! ### Characters -/

theorem charOf_toNat (c : Char) : charOf c.toNat = c := by
  have hvalid : c.toNat.isValidChar := c.valid
  rw [charOf, if_pos hvalid, Char.ofNat_toNat]

theorem isHighHalf_eq_false {u : UInt16} (h : u.toNat < 0xD800 ∨ 0xDC00 ≤ u.toNat) :
    isHighHalf u = false := by
  have hlow : (0xD800 : UInt16) ≤ u ↔ 0xD800 ≤ u.toNat := UInt16.le_iff_toNat_le
  have hhigh : u < 0xDC00 ↔ u.toNat < 0xDC00 := UInt16.lt_iff_toNat_lt
  rw [isHighHalf, Bool.and_eq_false_iff, decide_eq_false_iff_not, decide_eq_false_iff_not, hlow,
    hhigh]
  omega

/-- A unit that is no high half is a code point of its own, whatever follows it. -/
theorem prependUnit_of_not_high {u : UInt16} (h : isHighHalf u = false) (rest : List Nat) :
    prependUnit u rest = u.toNat :: rest := by
  cases rest <;> simp [prependUnit, h]

theorem toNat_lt_or_gt (c : Char) : c.toNat < 0xD800 ∨ 0xDFFF < c.toNat ∧ c.toNat < 0x110000 := by
  have h := c.valid
  simp only [UInt32.isValidChar, Nat.isValidChar] at h
  exact h

/-- Two halves, a high one and a low one, read as the code point that they were made of. -/
theorem codePoints_halves {high low : UInt16} {offset : Nat} (hoffset : offset < 0x100000)
    (hhigh : high.toNat = 0xD800 + offset / 0x400) (hlow : low.toNat = 0xDC00 + offset % 0x400)
    (t : Text) :
    codePoints (high :: low :: t) = (0x10000 + offset) :: codePoints t := by
  have hsecond : isHighHalf low = false := isHighHalf_eq_false (by omega)
  have hpair : (isHighHalf high && isLowHalf low.toNat) = true := by
    have hfrom : (0xD800 : UInt16) ≤ high ↔ 0xD800 ≤ high.toNat := UInt16.le_iff_toNat_le
    have hto : high < (0xDC00 : UInt16) ↔ high.toNat < 0xDC00 := UInt16.lt_iff_toNat_lt
    simp only [isHighHalf, isLowHalf, Bool.and_eq_true, decide_eq_true_eq, hfrom, hto]
    omega
  have hcode : pairCode high (UInt16.ofNat low.toNat) = 0x10000 + offset := by
    have hparts :
        pairCode high low = 0x10000 + (high.toNat - 0xD800) * 0x400 + (low.toNat - 0xDC00) := rfl
    rw [UInt16.ofNat_toNat]
    omega
  have hstep : codePoints (high :: low :: t) = prependUnit high (prependUnit low (codePoints t)) :=
    rfl
  rw [hstep, prependUnit_of_not_high hsecond, prependUnit, if_pos hpair, hcode]

/-- The units of a character read as its code point, whatever text follows them. -/
theorem codePoints_ofChar_append (c : Char) (t : Text) :
    codePoints (ofChar c ++ t) = c.toNat :: codePoints t := by
  have hcode := toNat_lt_or_gt c
  rw [ofChar]
  generalize c.toNat = code at hcode
  split_ifs with hone
  · have hunit : (UInt16.ofNat code).toNat = code := UInt16.toNat_ofNat_of_lt hone
    have hplain : isHighHalf (UInt16.ofNat code) = false := isHighHalf_eq_false (by omega)
    have hstep : codePoints ([UInt16.ofNat code] ++ t) =
      prependUnit (UInt16.ofNat code) (codePoints t) := rfl
    rw [hstep, prependUnit_of_not_high hplain, hunit]
  · have hoffset : 0x10000 + (code - 0x10000) = code := Nat.add_sub_cancel' (Nat.le_of_not_lt hone)
    have hbound : code - 0x10000 < 0x100000 := by omega
    have hhalf : ∀ half : Nat, half < 0xE000 → (UInt16.ofNat half).toNat = half := fun half h =>
      UInt16.toNat_ofNat_of_lt (Nat.lt_trans h (by decide))
    conv_rhs => rw [← hoffset]
    exact codePoints_halves hbound (hhalf _ (by omega)) (hhalf _ (by omega)) t

/-- The units of characters read as these characters. -/
theorem chars_ofChars (cs : List Char) : chars (ofChars cs) = cs := by
  induction cs with
  | nil => rfl
  | cons c rest ih =>
    have hstep : ofChars (c :: rest) = ofChar c ++ ofChars rest := rfl
    rw [chars] at ih ⊢
    rw [hstep, codePoints_ofChar_append, List.map_cons, charOf_toNat, ih]

theorem toString_ofString (s : String) : toString (ofString s) = s := by
  rw [toString, ofString, chars_ofChars, String.ofList_toList]

theorem ofString_injective : Function.Injective ofString :=
  Function.LeftInverse.injective toString_ofString

/-! ### The order -/

/-- One text is before another in the lexicographic order of lists of units. -/
theorem before_iff_lt {a b : Text} : before a b = true ↔ a < b := by
  induction a generalizing b with
  | nil => cases b <;> simp [before]
  | cons x xs ih =>
    cases b with
    | nil => simp [before]
    | cons y ys =>
      rw [before, List.cons_lt_cons_iff]
      split_ifs with hsame
      · subst hsame
        simp [ih]
      · simp [hsame]

theorem not_before_iff_le {a b : Text} : (!before b a) = true ↔ a ≤ b := by
  rw [Bool.not_eq_true', ← Bool.not_eq_true, before_iff_lt, List.not_lt]

/-- The order by units is not the order by characters: halves come first. -/
example : ofString "😀" < ofString "ﬁ" ∧ "ﬁ" < "😀" := by decide

end DeviceReports.Text
