import DeviceReports.Proofs.PlainText

/-!
# Line feeds

A text ends as many lines as its bytes do: encoding neither adds a line feed nor takes one away,
whatever halves stand alone or meet in the text. Filling a column adds none either.
-/

set_option autoImplicit false

namespace DeviceReports

open Text (Bytes)

/-- How many lines bytes end. -/
def Text.Bytes.lineFeeds (bytes : Bytes) : Nat := bytes.count 10

namespace Text

/-- How many lines a text ends. -/
def lineFeeds (t : Text) : Nat := t.count 10

/-! ### Encoding -/

/-- No byte of a longer character is a line feed. -/
theorem ofNat_ne_ten (x : Nat) {m k : Nat} (pos : 0 < m) (high : 128 ≤ k) (fits : m + k ≤ 256) :
    ¬ UInt8.ofNat (x % m + k) = 10 := by
  have hmod : x % m < m := Nat.mod_lt x pos
  intro h
  have hten := congrArg UInt8.toNat h
  rw [UInt8.toNat_ofNat_of_lt' (by simp [UInt8.size]; omega)] at hten
  have hvalue : (10 : UInt8).toNat = 10 := rfl
  omega

theorem count_utf8 (c : Char) :
    (String.utf8EncodeChar c).count 10 = if c.toNat = 10 then 1 else 0 := by
  have htoNat : c.toNat = c.val.toNat := rfl
  rw [String.utf8EncodeChar, htoNat]
  generalize c.val.toNat = v
  by_cases hone : v ≤ 127
  · have hunit : UInt8.ofNat v = 10 ↔ v = 10 := by
      constructor
      · intro h
        have hnat := congrArg UInt8.toNat h
        rwa [UInt8.toNat_ofNat_of_lt' (by simp [UInt8.size]; omega)] at hnat
      · rintro rfl
        rfl
    rw [if_pos hone, List.count_singleton]
    simp only [beq_iff_eq, hunit]
  · have hnext (x : Nat) := ofNat_ne_ten x (m := 64) (k := 128) (by omega) (by omega) (by omega)
    have htwo (x : Nat) := ofNat_ne_ten x (m := 32) (k := 192) (by omega) (by omega) (by omega)
    have hthree (x : Nat) := ofNat_ne_ten x (m := 16) (k := 224) (by omega) (by omega) (by omega)
    have hfour (x : Nat) := ofNat_ne_ten x (m := 8) (k := 240) (by omega) (by omega) (by omega)
    rw [if_neg hone, if_neg (show ¬ v = 10 by omega)]
    split_ifs <;>
      simp only [List.count_cons, List.count_nil, beq_iff_eq, hnext, htwo, hthree, hfour, if_false]

theorem charOf_eq_ten {code : Nat} : (charOf code).toNat = 10 ↔ code = 10 := by
  rw [charOf]
  by_cases hvalid : code.isValidChar
  · rw [if_pos hvalid, Char.ofNat, dif_pos hvalid]
    rfl
  · rw [if_neg hvalid]
    constructor
    · intro h
      exact absurd h (by decide)
    · rintro rfl
      exact absurd (by decide) hvalid

/-- A unit that is put before code points adds a line feed where it is one: the halves of a pair
are none, and neither is their pair. -/
theorem count_prependUnit (u : UInt16) (rest : List Nat) :
    (prependUnit u rest).count 10 = (if u = 10 then 1 else 0) + rest.count 10 := by
  have hunit : u.toNat = 10 ↔ u = 10 := by
    constructor
    · intro h
      exact UInt16.toNat_inj.mp h
    · rintro rfl
      rfl
  have hplain (codes : List Nat) :
      (u.toNat :: codes).count 10 = (if u = 10 then 1 else 0) + codes.count 10 := by
    rw [List.count_cons, Nat.add_comm]
    simp only [beq_iff_eq, hunit]
  cases rest with
  | nil => exact hplain []
  | cons next others =>
    rw [prependUnit]
    by_cases hpair : (isHighHalf u && isLowHalf next) = true
    · obtain ⟨hhigh, hlow⟩ := Bool.and_eq_true_iff.mp hpair
      have hu : ¬ u = 10 := by
        rintro rfl
        exact absurd hhigh (by decide)
      have hnext : ¬ next = 10 := by
        rintro rfl
        exact absurd hlow (by decide)
      have hcode : ¬ pairCode u (UInt16.ofNat next) = 10 := by
        unfold pairCode
        omega
      rw [if_pos hpair, if_neg hu, List.count_cons, List.count_cons]
      simp [hnext, hcode]
    · rw [if_neg hpair]
      exact hplain (next :: others)

theorem count_codePoints (t : Text) : (codePoints t).count 10 = t.count 10 := by
  induction t with
  | nil => rfl
  | cons u rest ih =>
    have hstep : codePoints (u :: rest) = prependUnit u (codePoints rest) := rfl
    rw [hstep, count_prependUnit, ih, List.count_cons, Nat.add_comm]
    simp only [beq_iff_eq]

/-- The bytes of a text end as many lines as the text. -/
theorem lineFeeds_encode (t : Text) : Bytes.lineFeeds t.encode = t.lineFeeds := by
  rw [lineFeeds, ← count_codePoints, Bytes.lineFeeds, encode, chars]
  generalize codePoints t = codes
  induction codes with
  | nil => rfl
  | cons code rest ih =>
    rw [List.map_cons, List.flatMap_cons, List.count_append, ih, count_utf8, List.count_cons,
      Nat.add_comm]
    simp only [charOf_eq_ten, beq_iff_eq]

/-! ### Parts -/

@[simp] theorem lineFeeds_append (t u : Text) : (t ++ u).lineFeeds = t.lineFeeds + u.lineFeeds :=
  List.count_append

@[simp] theorem lineFeeds_padEnd (t : Text) (width : Nat) :
    (t.padEnd width Column.space).lineFeeds = t.lineFeeds := by
  rw [padEnd, lineFeeds_append]
  simp [lineFeeds, List.count_replicate, Column.space]

/-- A printable text ends no line. -/
theorem lineFeeds_printable {t : Text} (h : t.Printable) : t.lineFeeds = 0 := by
  rw [lineFeeds, List.count_eq_zero]
  intro hten
  exact absurd (h 10 hten).1 (by decide)

theorem ofString_append (s t : String) : ofString (s ++ t) = ofString s ++ ofString t := by
  rw [ofString, String.toList_append, ofChars, List.flatMap_append]
  rfl

end Text

@[simp] theorem Column.lineFeeds_decimal (value width : Number) :
    (Column.decimal value width).lineFeeds = 0 :=
  Text.lineFeeds_printable (Column.printable_decimal value width)

end DeviceReports
