import DeviceReports.Proofs.DigitKeys
import DeviceReports.Proofs.Formatting
import DeviceReports.Proofs.UnitOrder
import DeviceReports.Proofs.Words

/-!
# Columns read back

A figure that is an exact integer is told by its decimal digits, and a count by its digits in base
16 however many zeros are before them: the reader of numeric texts gives back the figure that was
written. Digits have no slash either, so columns that slashes join are told apart.
-/

set_option autoImplicit false

namespace DeviceReports

/-! ### Digits -/

namespace Decimal

theorem natural?_concat (base : Nat) (cs : List Char) (c : Char) :
    natural? base (cs ++ [c]) =
      (natural? base cs).bind fun n => (digit? base c).map fun d => n * base + d := by
  rw [natural?, List.foldl_concat]
  change (do pure ((← natural? base cs) * base + (← digit? base c))) = _
  cases natural? base cs <;> cases digit? base c <;> rfl

theorem digit?_digitChar : ∀ base ≤ 16, ∀ d < base, digit? base d.digitChar = some d := by decide

theorem natural?_zeros {base : Nat} (two : 1 < base) (few : base ≤ 16) (width : Nat) :
    natural? base (zeros width) = some 0 := by
  have hzero : digit? base '0' = some 0 := digit?_digitChar base few 0 (by omega)
  induction width with
  | zero => rfl
  | succ width ih =>
    rw [zeros] at ih ⊢
    rw [List.replicate_succ', natural?_concat, ih, hzero]
    simp

/-- The digits of a number denote it, with zeros before them as well. -/
theorem natural?_toDigits {base : Nat} (two : 1 < base) (few : base ≤ 16) (width n : Nat) :
    natural? base (zeros width ++ Nat.toDigits base n) = some n := by
  induction n using Nat.strong_induction_on with
  | _ n ih =>
    by_cases hlast : n < base
    · rw [Nat.toDigits_of_lt_base hlast, natural?_concat, natural?_zeros two few,
        digit?_digitChar base few n hlast]
      simp
    · have hfewer : n / base < n := Nat.div_lt_self (by omega) two
      have hunits : n % base < base := Nat.mod_lt n (by omega)
      rw [Nat.toDigits_of_base_le two (by omega), ← List.append_assoc, natural?_concat, ih _ hfewer,
        digit?_digitChar base few _ hunits]
      exact congrArg some (Nat.div_add_mod' n base)

theorem exists_digitChar {base n : Nat} (two : 1 < base) {c : Char} (h : c ∈ Nat.toDigits base n) :
    ∃ d < base, c = d.digitChar := by
  induction n using Nat.strong_induction_on with
  | _ n ih =>
    by_cases hlast : n < base
    · rw [Nat.toDigits_of_lt_base hlast] at h
      exact ⟨n, hlast, List.mem_singleton.mp h⟩
    · rw [Nat.toDigits_of_base_le two (by omega)] at h
      rcases List.mem_append.mp h with hmore | hunit
      · exact ih _ (Nat.div_lt_self (by omega) two) hmore
      · exact ⟨n % base, Nat.mod_lt n (by omega), List.mem_singleton.mp hunit⟩

theorem isDigit_of_mem {n : Nat} {c : Char} (h : c ∈ Nat.toDigits 10 n) : c.isDigit = true := by
  obtain ⟨d, hd, rfl⟩ := exists_digitChar (by decide) h
  have hall : ∀ d < 10, d.digitChar.isDigit = true := by decide
  exact hall d hd

theorem slash_notMem_toDigits {base : Nat} (two : 1 < base) (few : base ≤ 16) (n : Nat) :
    '/' ∉ Nat.toDigits base n := by
  intro h
  obtain ⟨d, hd, hslash⟩ := exists_digitChar two h
  have hall : ∀ d < 16, '/' ≠ d.digitChar := by decide
  exact hall d (by omega) hslash

end Decimal

/-! ### Numeric texts -/

namespace Number

open DigitKeys Decimal

theorem ofText_toDigits (n : Nat) : ofText (String.ofList (Nat.toDigits 10 n)) = ofNat n := by
  have hdigits : Schema.isDigits (String.ofList (Nat.toDigits 10 n)) = true := by
    have hnonempty : (String.ofList (Nat.toDigits 10 n)).isEmpty = false := by
      rw [String.isEmpty_eq_false_iff]
      exact fun h => toDigits_ne_nil n (by simpa using congrArg String.toList h)
    rw [Schema.isDigits, hnonempty, String.toList_ofList]
    exact List.all_eq_true.mpr fun c hc => isDigit_of_mem hc
  have hvalue : decimalValue (String.ofList (Nat.toDigits 10 n)) = n := by
    have hread := natural?_toDigits (show 1 < 10 by decide) (by decide) 0 n
    rw [zeros, List.replicate_zero, List.nil_append] at hread
    rw [decimalValue, String.toList_ofList, hread]
    rfl
  rw [ofText_digits hdigits, hvalue]

theorem ofText_minus (n : Nat) : ofText (String.ofList ('-' :: Nat.toDigits 10 n)) = -ofNat n := by
  have hgraphic : GraphicChars ('-' :: Nat.toDigits 10 n) := .cons (by decide) (.digits n)
  have hread := natural?_toDigits (show 1 < 10 by decide) (by decide) 0 n
  rw [zeros, List.replicate_zero, List.nil_append] at hread
  have hmagnitude : magnitude? (Nat.toDigits 10 n) = some (ofNat n) := by
    rw [magnitude?_digits (fun c hc => isDigit_of_mem hc) (toDigits_ne_nil n), hread,
      Option.map_some, ofScientific_zero]
  rw [ofText, String.toList_ofList, trimBlanks_graphic hgraphic]
  change ((marked? _).orElse fun _ => (magnitude? (Nat.toDigits 10 n)).map Neg.neg).getD .nan = _
  rw [hmagnitude]
  rfl

/-- A base-16 literal denotes its digits, however many zeros are before them. -/
theorem ofText_marked (width n : Nat) :
    ofText (String.ofList ('0' :: 'x' :: (zeros width ++ Nat.toDigits 16 n))) = ofNat n := by
  have hdigits : GraphicChars (Nat.toDigits 16 n) := .toDigits (by decide) (by decide) n
  have hgraphic : GraphicChars ('0' :: 'x' :: (zeros width ++ Nat.toDigits 16 n)) :=
    .cons (by decide) (.cons (by decide) ((GraphicChars.zeros width).append hdigits))
  have hnonempty : (zeros width ++ Nat.toDigits 16 n).isEmpty = false := by
    rw [List.isEmpty_eq_false_iff]
    exact List.append_ne_nil_of_right_ne_nil _ (List.ne_nil_of_length_pos Nat.length_toDigits_pos)
  have hmarked : marked? ('0' :: 'x' :: (zeros width ++ Nat.toDigits 16 n)) = some (ofNat n) := by
    have hbase : markedBase? 'x' = some 16 := by decide
    rw [marked?, hbase]
    change (if (zeros width ++ Nat.toDigits 16 n).isEmpty = true then none else _) = _
    rw [hnonempty, if_neg (by decide), natural?_toDigits (by decide) (by decide)]
    rfl
  rw [ofText, String.toList_ofList, trimBlanks_graphic hgraphic]
  change ((marked? _).orElse _).getD .nan = _
  rw [hmarked]
  rfl

/-- An integer of at most 2^53 in magnitude. -/
def Exact (x : Number) : Prop := ∃ z : Int, z.natAbs ≤ exactBound ∧ x = .finite z

theorem exact_ofInt {z : Int} (exact : z.natAbs ≤ exactBound) : (ofInt z).Exact := by
  refine ⟨z, exact, ?_⟩
  rw [ofInt, ofRat, if_pos (by simpa using exact)]

theorem exact_ofNat {n : Nat} (exact : n ≤ exactBound) : (ofNat n).Exact :=
  ⟨n, by simpa using exact, by rw [ofNat_eq_ofCount exact, ofCount, Int.cast_natCast]⟩

theorem exact_of_count? {x : Number} {n : Nat} (count : x.count? = some n) : x.Exact := by
  obtain ⟨hx, hn⟩ := eq_ofCount_of_count? count
  exact ⟨n, by simpa using hn.le, by rw [hx, ofCount, Int.cast_natCast]⟩

theorem exact_counter (c : Counter) : c.number.Exact := by
  have hlow : -2147483648 ≤ c.value := c.word.le_toInt
  have hhigh : c.value < 2147483648 := c.word.toInt_lt
  apply exact_ofInt
  unfold exactBound
  omega

end Number

/-! ### Parts of a column -/

namespace Text

def slash : UInt16 := 47

/-- What stands between the slashes of a text. -/
def slashed (t : Text) : List Text := t.splitOnP (· == slash)

variable {t u : Text}

theorem slashed_of_notMem (h : slash ∉ t) : slashed t = [t] := by
  refine List.splitOnP_eq_singleton fun x hx => beq_eq_false_iff_ne.mpr ?_
  rintro rfl
  exact h hx

theorem slashed_append_slash (h : slash ∉ t) (u : Text) :
    slashed (t ++ slash :: u) = t :: slashed u := by
  rw [slashed, List.splitOnP_append_cons (p := (· == slash)) t u (beq_self_eq_true _)]
  exact congrArg (· ++ slashed u) (slashed_of_notMem h)

theorem slash_notMem_append (ht : slash ∉ t) (hu : slash ∉ u) : slash ∉ t ++ u :=
  fun h => (List.mem_append.mp h).elim ht hu

theorem slash_notMem_ofChars {cs : List Char} (graphic : GraphicChars cs) (h : '/' ∉ cs) :
    slash ∉ ofChars cs := by
  rw [ofChars_graphic graphic]
  intro hslash
  obtain ⟨c, hc, hcode⟩ := List.mem_map.mp hslash
  have hsmall : c.toNat < 128 := (graphic c hc).2
  have hunit : c.toNat = 47 := by
    have hsize : c.toNat < UInt16.size := Nat.lt_trans hsmall (by decide)
    have hback : (UInt16.ofNat c.toNat).toNat = c.toNat := UInt16.toNat_ofNat_of_lt hsize
    rw [hcode] at hback
    exact hback.symm
  have hchar : c = '/' := Char.toNat_inj.mp hunit
  exact h (hchar ▸ hc)

end Text

namespace Column

open Number Decimal

/-- The figure that the text of a column denotes. -/
def figure (t : Text) : Number := ofText t.toString

/-- The characters of an exact integer. -/
def integerChars (z : Int) : List Char := (if z < 0 then ['-'] else []) ++ Nat.toDigits 10 z.natAbs

theorem written_exact {z : Int} (exact : z.natAbs ≤ exactBound) :
    written (.finite z) = Text.ofString (String.ofList (integerChars z)) := by
  have hexact : (z : Rat).den = 1 ∧ (z : Rat).num.natAbs ≤ exactBound := by simpa using exact
  have htrunc : (Number.finite (z : Rat)).trunc = .finite (z : Rat) := by simp [trunc]
  have hsign : (z : Rat) < 0 ↔ z < 0 := Int.cast_lt_zero
  rw [written, htrunc, Number.text, Decimal.text, if_pos hexact, integerChars]
  simp only [hsign, Rat.num_intCast]

/-- An exact integer is told by its digits. -/
theorem figure_written {x : Number} (exact : x.Exact) : figure (written x) = x := by
  obtain ⟨z, hz, rfl⟩ := exact
  rw [figure, written_exact hz, Text.toString_ofString, integerChars]
  have habs : ofNat z.natAbs = .finite (z.natAbs : Rat) := ofNat_eq_ofCount hz
  by_cases hsign : z < 0
  · have hvalue : (z : Rat) = -(z.natAbs : Rat) := by
      rw [← Int.cast_natCast, ← Int.cast_neg]
      exact congrArg _ (by omega)
    rw [if_pos hsign, List.singleton_append, ofText_minus, habs, hvalue]
    rfl
  · have hvalue : (z : Rat) = (z.natAbs : Rat) := by
      rw [← Int.cast_natCast]
      exact congrArg _ (by omega)
    rw [if_neg hsign, List.nil_append, ofText_toDigits, habs, hvalue]

theorem slash_notMem_written {x : Number} (exact : x.Exact) : Text.slash ∉ written x := by
  obtain ⟨z, hz, rfl⟩ := exact
  have hdigits := slash_notMem_toDigits (show 1 < 10 by decide) (by decide) z.natAbs
  have hchars : '/' ∉ integerChars z ∧ GraphicChars (integerChars z) := by
    rw [integerChars]
    by_cases hsign : z < 0
    · rw [if_pos hsign]
      exact ⟨fun h => (List.mem_cons.mp h).elim (by decide) hdigits, .cons (by decide) (.digits _)⟩
    · rw [if_neg hsign]
      exact ⟨hdigits, .digits _⟩
  rw [written_exact hz, Text.ofString, String.toList_ofList]
  exact Text.slash_notMem_ofChars hchars.2 hchars.1

/-! ### Columns in base 16 -/

/-- The text of a column in base 16, empty for a figure that has none. -/
def hexText (x digits : Number) : Text := (hex x digits).toOption.getD []

theorem hex_eq_ok {x : Number} (h : x ≠ .infinite true) (digits : Number) :
    hex x digits = .ok (hexText x digits) := by
  obtain ⟨t, ht⟩ := ready_hex h digits
  rw [hexText, ht]
  rfl

/-- A column in base 16 is the digits of its figure with zeros before them. -/
theorem hex_of_hexText? {x : Number} {n : Nat} (h : x.hexText? = some (hexDigits n))
    (digits : Number) :
    hex x digits = .ok (Text.ofChars
      (zeros (unitsOf digits - (Nat.toDigits 16 n).length) ++ Nat.toDigits 16 n)) := by
  have htext : Text.ofString (hexDigits n) = Text.ofChars (Nat.toDigits 16 n) := by
    rw [hexDigits, Text.ofString, String.toList_ofList]
  have hlength : (Text.ofChars (Nat.toDigits 16 n)).length = (Nat.toDigits 16 n).length := by
    rw [Text.ofChars_graphic (.toDigits (by decide) (by decide) n), List.length_map]
  have hzeros (width : Nat) : List.replicate width zero = Text.ofChars (zeros width) := by
    rw [Text.ofChars_graphic (GraphicChars.zeros width), zeros, List.map_replicate]
    rfl
  rw [hex, h]
  dsimp only
  rw [Text.padStart, htext, hlength, hzeros, Text.ofChars, Text.ofChars, Text.ofChars,
    List.flatMap_append]

theorem hex_of_count? {x : Number} {n : Nat} (count : x.count? = some n) (digits : Number) :
    ∃ width, hex x digits = .ok (Text.ofChars (zeros width ++ Nat.toDigits 16 n)) := by
  obtain ⟨rfl, -⟩ := eq_ofCount_of_count? count
  have htext : (ofCount n).hexText? = some (hexDigits n) := by
    simp [hexText?, ofCount]
  exact ⟨_, hex_of_hexText? htext digits⟩

/-- A figure in base 16 behind the mark of that base. -/
def literal (x digits : Number) : Text := label "0x" ++ hexText x digits

/-- A count is told by its digits in base 16. -/
theorem figure_literal {x : Number} (count : x.count?.isSome = true) (digits : Number) :
    figure (literal x digits) = x := by
  obtain ⟨n, hn⟩ := Option.isSome_iff_exists.mp count
  obtain ⟨hx, hexact⟩ := eq_ofCount_of_count? hn
  obtain ⟨width, hhex⟩ := hex_of_count? hn digits
  have hliteral : literal x digits =
      Text.ofString (String.ofList ('0' :: 'x' :: (zeros width ++ Nat.toDigits 16 n))) := by
    rw [literal, hexText, hhex, Text.ofString, String.toList_ofList]
    rfl
  rw [hliteral, figure, Text.toString_ofString, ofText_marked, ofNat_eq_ofCount hexact.le, hx]

theorem slash_notMem_literal {x : Number} (count : x.count?.isSome = true) (digits : Number) :
    Text.slash ∉ literal x digits := by
  obtain ⟨n, hn⟩ := Option.isSome_iff_exists.mp count
  obtain ⟨width, hhex⟩ := hex_of_count? hn digits
  have hslash : '/' ∉ zeros width ++ Nat.toDigits 16 n := by
    intro h
    rcases List.mem_append.mp h with hzero | hdigit
    · exact absurd (List.mem_replicate.mp hzero).2 (by decide)
    · exact slash_notMem_toDigits (by decide) (by decide) n hdigit
  have hgraphic : GraphicChars (zeros width ++ Nat.toDigits 16 n) :=
    (GraphicChars.zeros width).append (.toDigits (by decide) (by decide) n)
  have hdigits : Text.slash ∉ hexText x digits := by
    rw [hexText, hhex]
    exact Text.slash_notMem_ofChars hgraphic hslash
  exact Text.slash_notMem_append (by decide) hdigits

theorem graphic_literal {x : Number} (h : x ≠ .infinite true) (digits : Number) :
    (literal x digits).Graphic := by
  have hmark : (label "0x").Graphic := by decide
  exact hmark.append (graphic_hex (hex_eq_ok h digits))

/-- A literal is one word. -/
theorem words_literal {x : Number} (h : x ≠ .infinite true) (digits : Number) :
    (literal x digits).words = [literal x digits] :=
  Text.words_graphic (graphic_literal h digits) (List.append_ne_nil_of_left_ne_nil (by decide) _)

end Column

end DeviceReports
