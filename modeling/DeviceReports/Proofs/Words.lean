import DeviceReports.Proofs.PlainText

/-!
# Words of a text

A reader of a table takes the words of a row, which stand between its spaces. A column that is
filled with spaces on its left is one word however wide it is, as figures are written without
spaces.
-/

set_option autoImplicit false

namespace DeviceReports

namespace Text

/-- The words of a text: its longest parts without spaces. -/
def words (t : Text) : List Text :=
  (t.splitOnP (· == Column.space)).filter fun part => !part.isEmpty

variable {t : Text}

theorem words_append_space (t u : Text) :
    words (t ++ Column.space :: u) = words t ++ words u := by
  rw [words, List.splitOnP_append_cons (p := (· == Column.space)) t u (beq_self_eq_true _),
    List.filter_append]
  rfl

/-- Printable columns are printable next to each other. -/
theorem Printable.spaced {u : Text} (first : t.Printable) (rest : u.Printable) :
    Text.Printable (t ++ Column.space :: u) := by
  have hspace : Text.Printable [Column.space] := by decide
  exact first.append (hspace.append rest)

theorem words_space_cons (t : Text) : words (Column.space :: t) = words t :=
  words_append_space [] t

theorem words_replicate_append (n : Nat) (t : Text) :
    words (List.replicate n Column.space ++ t) = words t := by
  induction n with
  | zero => rfl
  | succ n ih =>
    rw [List.replicate_succ, List.cons_append, words_space_cons]
    exact ih

/-- A text without spaces is one word. -/
theorem words_graphic (graphic : t.Graphic) (nonempty : t ≠ []) : words t = [t] := by
  have hunit : ∀ u ∈ t, (u == Column.space) = false := by
    intro u hu
    have hcode : 32 < u.toNat := (graphic u hu).1
    apply beq_eq_false_iff_ne.mpr
    rintro rfl
    exact absurd hcode (by decide)
  rw [words, List.splitOnP_eq_singleton hunit]
  simp [nonempty]

end Text

namespace Decimal

theorem toDigits_ne_nil (n : Nat) : Nat.toDigits 10 n ≠ [] :=
  List.ne_nil_of_length_pos Nat.length_toDigits_pos

theorem layout_ne_nil (f : Figure) : f.layout ≠ [] := by
  rw [Figure.layout]
  dsimp only
  split
  · exact List.append_ne_nil_of_left_ne_nil (toDigits_ne_nil _) _
  · split
    · exact List.append_ne_nil_of_right_ne_nil _ (List.cons_ne_nil _ _)
    · split
      · exact List.cons_ne_nil _ _
      · exact List.append_ne_nil_of_right_ne_nil _ (List.cons_ne_nil _ _)

theorem text_ne_nil (q : Rat) : text q ≠ [] := by
  rw [text]
  split
  · exact List.append_ne_nil_of_right_ne_nil _ (toDigits_ne_nil _)
  · exact List.append_ne_nil_of_right_ne_nil _ (layout_ne_nil _)

end Decimal

namespace Column

/-- The integer part of a figure as it is written. -/
def written (x : Number) : Text := Text.ofString x.trunc.text

theorem graphic_written (x : Number) : (written x).Graphic :=
  Text.graphic_ofChars (Number.graphic_text _)

theorem written_ne_nil (x : Number) : written x ≠ [] := by
  have htext : x.trunc.text.toList ≠ [] := by
    rcases x.trunc with _ | negative | q
    · decide
    · cases negative <;> decide
    · rw [Number.text, String.toList_ofList]
      exact Decimal.text_ne_nil q
  rw [written, Text.ofString, Text.ofChars_graphic (Number.graphic_text _)]
  simpa using htext

/-- A figure in base 16 is written without spaces too. -/
theorem graphic_hex {x width : Number} {t : Text} (h : hex x width = .ok t) : t.Graphic := by
  have hdigits (n : Nat) : GraphicChars (Number.hexDigits n).toList := by
    rw [Number.hexDigits, String.toList_ofList]
    exact .toDigits (by decide) (by decide) n
  rw [hex] at h
  split at h
  · next s hs =>
    have hchars : GraphicChars s.toList := by
      rcases x with _ | negative | q
      · obtain rfl := Option.some.inj hs
        exact Number.graphic_text _
      · cases negative
        · obtain rfl := Option.some.inj hs
          exact Number.graphic_text _
        · cases hs
      · rw [Number.hexText?] at hs
        split at hs <;> obtain rfl := Option.some.inj hs <;> exact hdigits _
    obtain rfl := Except.ok.inj h
    have hzeros :
        Text.Graphic (List.replicate (unitsOf width - (Text.ofString s).length) zero) := by
      intro u hu
      obtain ⟨-, rfl⟩ := List.mem_replicate.mp hu
      decide
    exact hzeros.append (Text.graphic_ofChars hchars)
  · cases h

/-- A decimal column is one word with whatever stands next to it. -/
theorem words_decimal_append (x width : Number) {t : Text} (graphic : t.Graphic) :
    (decimal x width ++ t).words = [written x ++ t] := by
  rw [decimal, Text.padStart, List.append_assoc, Text.words_replicate_append]
  exact Text.words_graphic ((graphic_written x).append graphic)
    (List.append_ne_nil_of_left_ne_nil (written_ne_nil x) t)

theorem words_decimal (x width : Number) : (decimal x width).words = [written x] := by
  simpa using words_decimal_append x width (t := []) nofun

/-- A count is written in decimal digits. -/
theorem written_ofCount {n : Nat} (exact : n ≤ Number.exactBound) :
    written (.ofCount n) = Text.ofString (toString n) := by
  have hexact : (n : Rat).den = 1 ∧ (n : Rat).num.natAbs ≤ Number.exactBound := by simpa using exact
  have hsign : ¬ (n : Rat) < 0 := not_lt.mpr (Nat.cast_nonneg n)
  have htrunc : (Number.ofCount n).trunc = .finite (n : Rat) := by
    simp [Number.ofCount, Number.trunc]
  rw [written, htrunc, Number.text, Decimal.text, if_pos hexact, if_neg hsign, List.nil_append,
    Rat.num_natCast]
  rfl

end Column

end DeviceReports
