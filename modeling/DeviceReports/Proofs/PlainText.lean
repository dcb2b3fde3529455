import DeviceReports.Column
import DeviceReports.Proofs.Counts
import DeviceReports.Text.Utf8

/-!
# Text that is one byte a unit

Figures are written without spaces, and decimal columns hold nothing but printable ASCII
characters, so each of their units becomes one byte, none of them ends a line, and encoding goes
piece by piece. That does not hold of texts
at large, where two halves that meet become one character.
-/

set_option autoImplicit false

namespace DeviceReports

/-- A code from the space up to the end of ASCII. -/
def PrintableCode (n : Nat) : Prop := 32 ≤ n ∧ n < 128

instance (n : Nat) : Decidable (PrintableCode n) := inferInstanceAs (Decidable (_ ∧ _))

/-- A code after the space up to the end of ASCII. -/
def GraphicCode (n : Nat) : Prop := 32 < n ∧ n < 128

instance (n : Nat) : Decidable (GraphicCode n) := inferInstanceAs (Decidable (_ ∧ _))

/-- Characters that are all graphic ASCII. -/
def GraphicChars (cs : List Char) : Prop := ∀ c ∈ cs, GraphicCode c.toNat

instance (cs : List Char) : Decidable (GraphicChars cs) :=
  List.decidableBAll (fun c : Char => GraphicCode c.toNat) cs

namespace GraphicChars

theorem append {cs ds : List Char} (hc : GraphicChars cs) (hd : GraphicChars ds) :
    GraphicChars (cs ++ ds) :=
  fun c h => (List.mem_append.mp h).elim (hc c) (hd c)

theorem cons {c : Char} {cs : List Char} (hc : GraphicCode c.toNat) (hcs : GraphicChars cs) :
    GraphicChars (c :: cs) := by
  intro d h
  rcases List.mem_cons.mp h with rfl | h
  · exact hc
  · exact hcs d h

theorem take {cs : List Char} (h : GraphicChars cs) (n : Nat) : GraphicChars (cs.take n) :=
  fun c hc => h c (List.mem_of_mem_take hc)

theorem drop {cs : List Char} (h : GraphicChars cs) (n : Nat) : GraphicChars (cs.drop n) :=
  fun c hc => h c (List.mem_of_mem_drop hc)

theorem toDigits {b : Nat} (two : 1 < b) (few : b ≤ 16) (n : Nat) :
    GraphicChars (Nat.toDigits b n) := by
  have hdigit : ∀ d < 16, GraphicCode d.digitChar.toNat := by decide
  induction n using Nat.strong_induction_on with
  | _ n ih =>
    by_cases hlast : n < b
    · rw [Nat.toDigits_of_lt_base hlast]
      exact .cons (hdigit n (by omega)) nofun
    · have hfewer : n / b < n := Nat.div_lt_self (by omega) two
      have hunits : n % b < b := Nat.mod_lt n (by omega)
      rw [Nat.toDigits_of_base_le two (by omega)]
      exact (ih (n / b) hfewer).append (.cons (hdigit (n % b) (by omega)) nofun)

theorem digits (n : Nat) : GraphicChars (Nat.toDigits 10 n) := toDigits (by decide) (by decide) n

theorem zeros (n : Nat) : GraphicChars (Decimal.zeros n) := by
  intro c h
  obtain ⟨-, rfl⟩ := List.mem_replicate.mp h
  decide

end GraphicChars

namespace Decimal

theorem graphic_layout (f : Figure) : GraphicChars f.layout := by
  have hds := GraphicChars.digits f.digits
  rw [Figure.layout]
  dsimp only
  split
  · exact hds.append (.zeros _)
  · split
    · exact (hds.take _).append (.cons (by decide) (hds.drop _))
    · split
      · exact .cons (by decide) (.cons (by decide) ((GraphicChars.zeros _).append hds))
      · refine GraphicChars.append ?_ (.cons (by decide) (.cons ?_ (.digits _)))
        · split
          · next d e rest hsplit =>
            rw [hsplit] at hds
            exact .cons (hds d (by simp)) (.cons (by decide) fun c hc => hds c (by simp [hc]))
          · exact hds
        · split <;> decide

theorem graphic_text (q : Rat) : GraphicChars (text q) := by
  have hsign : GraphicChars (if q < 0 then ['-'] else []) := by
    split
    · exact .cons (by decide) nofun
    · exact nofun
  rw [text]
  split
  · exact hsign.append (.digits _)
  · exact hsign.append (graphic_layout _)

end Decimal

theorem Number.graphic_text (x : Number) : GraphicChars x.text.toList := by
  rcases x with _ | negative | q
  · decide
  · cases negative <;> decide
  · rw [text, String.toList_ofList]
    exact Decimal.graphic_text q

namespace Text

/-- A text whose units are all printable ASCII. -/
def Printable (t : Text) : Prop := ∀ u ∈ t, PrintableCode u.toNat

instance (t : Text) : Decidable (Printable t) :=
  List.decidableBAll (fun u : UInt16 => PrintableCode u.toNat) t

/-- A text whose units are all graphic ASCII: it has no space. -/
def Graphic (t : Text) : Prop := ∀ u ∈ t, GraphicCode u.toNat

instance (t : Text) : Decidable (Graphic t) :=
  List.decidableBAll (fun u : UInt16 => GraphicCode u.toNat) t

/-- A text of ASCII units. -/
def Plain (t : Text) : Prop := ∀ u ∈ t, u.toNat < 128

instance (t : Text) : Decidable (Plain t) :=
  List.decidableBAll (fun u : UInt16 => u.toNat < 128) t

theorem Printable.plain {t : Text} (h : Printable t) : Plain t := fun u hu => (h u hu).2

theorem Graphic.printable {t : Text} (h : Graphic t) : Printable t :=
  fun u hu => ⟨(h u hu).1.le, (h u hu).2⟩

theorem Graphic.append {t u : Text} (ht : Graphic t) (hu : Graphic u) : Graphic (t ++ u) :=
  fun x h => (List.mem_append.mp h).elim (ht x) (hu x)

theorem Printable.append {t u : Text} (ht : Printable t) (hu : Printable u) : Printable (t ++ u) :=
  fun x h => (List.mem_append.mp h).elim (ht x) (hu x)

theorem Plain.append {t u : Text} (ht : Plain t) (hu : Plain u) : Plain (t ++ u) :=
  fun x h => (List.mem_append.mp h).elim (ht x) (hu x)

theorem ofChars_graphic {cs : List Char} (h : GraphicChars cs) :
    ofChars cs = cs.map fun c => UInt16.ofNat c.toNat := by
  induction cs with
  | nil => rfl
  | cons c rest ih =>
    have hc : c.toNat < 128 := (h c (by simp)).2
    have hrest := ih fun d hd => h d (by simp [hd])
    rw [ofChars] at hrest ⊢
    rw [List.flatMap_cons, hrest, ofChar, if_pos (by omega)]
    rfl

theorem graphic_ofChars {cs : List Char} (h : GraphicChars cs) : Graphic (ofChars cs) := by
  rw [ofChars_graphic h]
  intro u hu
  obtain ⟨c, hc, rfl⟩ := List.mem_map.mp hu
  have hcode := h c hc
  have hsmall : c.toNat < 128 := hcode.2
  rwa [UInt16.toNat_ofNat_of_lt' (by simp [UInt16.size]; omega)]

theorem codePoints_plain {t : Text} (h : Plain t) : codePoints t = t.map UInt16.toNat := by
  induction t with
  | nil => rfl
  | cons u rest ih =>
    have hu : u.toNat < 128 := h u (by simp)
    have hrest := ih fun x hx => h x (by simp [hx])
    have hhigh : isHighHalf u = false := by
      have hlow : ¬ (0xD800 : UInt16) ≤ u := by
        rw [UInt16.le_iff_toNat_le]
        intro hle
        have : (0xD800 : UInt16).toNat = 0xD800 := rfl
        omega
      simp [isHighHalf, hlow]
    rw [codePoints] at hrest ⊢
    rw [List.foldr_cons, hrest]
    cases rest <;> simp [prependUnit, hhigh]

theorem utf8_plain : ∀ n, n < 128 → String.utf8EncodeChar (charOf n) = [UInt8.ofNat n] := by decide

theorem encode_plain {t : Text} (h : Plain t) : t.encode = t.map fun u => UInt8.ofNat u.toNat := by
  rw [encode, chars, codePoints_plain h]
  induction t with
  | nil => rfl
  | cons u rest ih =>
    have hrest := ih fun x hx => h x (by simp [hx])
    simp only [List.map_cons, List.flatMap_cons] at hrest ⊢
    rw [utf8_plain _ (h u (by simp)), hrest]
    rfl

theorem length_encode {t : Text} (h : Plain t) : t.encode.length = t.length := by
  rw [encode_plain h, List.length_map]

theorem encode_append {t u : Text} (ht : Plain t) (hu : Plain u) :
    (t ++ u).encode = t.encode ++ u.encode := by
  rw [encode_plain (ht.append hu), encode_plain ht, encode_plain hu, List.map_append]

/-- No byte of a printable text ends a line. -/
theorem newline_notMem_encode {t : Text} (h : Printable t) : 10 ∉ t.encode := by
  rw [encode_plain h.plain]
  intro hmem
  obtain ⟨u, hu, hnewline⟩ := List.mem_map.mp hmem
  have hcode := h u hu
  have hlow : 32 ≤ u.toNat := hcode.1
  have hsmall : u.toNat < 128 := hcode.2
  have hten : u.toNat = 10 := by
    have := congrArg UInt8.toNat hnewline
    rwa [UInt8.toNat_ofNat_of_lt' (by simp [UInt8.size]; omega)] at this
  omega

end Text

namespace Column

theorem printable_decimal (value width : Number) : (decimal value width).Printable := by
  rw [decimal, Text.padStart]
  refine Text.Printable.append ?_ (Text.graphic_ofChars (Number.graphic_text _)).printable
  intro u hu
  obtain ⟨-, rfl⟩ := List.mem_replicate.mp hu
  decide

/-- A decimal column is as wide as asked for, or as its figure is long. -/
theorem length_decimal (value width : Number) :
    (decimal value width).length = max (unitsOf width) value.trunc.text.length := by
  have htext : (Text.ofString value.trunc.text).length = value.trunc.text.length := by
    rw [Text.ofString, Text.ofChars_graphic (Number.graphic_text _), List.length_map,
      String.length_toList]
  rw [decimal, Text.padStart, List.length_append, List.length_replicate, htext]
  omega

end Column

end DeviceReports
