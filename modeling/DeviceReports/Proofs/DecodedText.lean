import DeviceReports.Host.Tree
import DeviceReports.Proofs.Draining
import DeviceReports.Proofs.UnitOrder

/-!
# Text read back from its bytes

The bytes of characters decode to these characters. Where the bytes are cut, the characters that are
left whole decode to themselves, and what remains of a character that is cut is the beginning of one
that could still be completed, so it reads as one replacement character and no more. Which
characters a text has is said here once more from its front: a pair of halves is one character, any
other half is a replacement character. Texts that are printed are read one by one, so halves in two
of them never meet.
-/

set_option autoImplicit false

namespace DeviceReports

namespace Text

/-! ### The characters of a text -/

/-- A unit that is a half of a pair. -/
def IsHalf (u : UInt16) : Prop := 0xD800 ≤ u.toNat ∧ u.toNat < 0xE000

/-- A high half with a low half behind it. -/
def Paired (u : UInt16) (rest : Text) : Prop :=
  isHighHalf u = true ∧ ∃ low others, rest = low :: others ∧ isLowHalf low.toNat = true

/-- What a text reads as, from its front: a character for its units, and a replacement character for
a half that is not paired. -/
inductive Reads : Text → List Char → Prop where
  | nil : Reads [] []
  | char (c : Char) {t : Text} {cs : List Char} (rest : Reads t cs) :
    Reads (ofChar c ++ t) (c :: cs)
  | lone {u : UInt16} {t : Text} {cs : List Char} (half : IsHalf u) (alone : ¬ Paired u t)
    (rest : Reads t cs) : Reads (u :: t) (replacement :: cs)

theorem isHighHalf_iff {u : UInt16} :
    isHighHalf u = true ↔ 0xD800 ≤ u.toNat ∧ u.toNat < 0xDC00 := by
  have hlow : (0xD800 : UInt16) ≤ u ↔ 0xD800 ≤ u.toNat := UInt16.le_iff_toNat_le
  have hhigh : u < 0xDC00 ↔ u.toNat < 0xDC00 := UInt16.lt_iff_toNat_lt
  rw [isHighHalf, Bool.and_eq_true, decide_eq_true_iff, decide_eq_true_iff, hlow, hhigh]

theorem isLowHalf_iff {code : Nat} : isLowHalf code = true ↔ 0xDC00 ≤ code ∧ code < 0xE000 := by
  rw [isLowHalf, Bool.and_eq_true, decide_eq_true_iff, decide_eq_true_iff]

/-- The first code point of a text is a low half only where its first unit is one. -/
theorem low_of_codePoints {t : Text} {code : Nat} {codes : List Nat}
    (h : codePoints t = code :: codes) (low : isLowHalf code = true) :
    ∃ u others, t = u :: others ∧ isLowHalf u.toNat = true := by
  cases t with
  | nil => cases h
  | cons u rest =>
    have hstep : codePoints (u :: rest) = prependUnit u (codePoints rest) := rfl
    rw [hstep] at h
    refine ⟨u, rest, rfl, ?_⟩
    cases hrest : codePoints rest with
    | nil =>
      rw [hrest, prependUnit] at h
      obtain ⟨rfl, -⟩ := List.cons.inj h
      exact low
    | cons next others =>
      rw [hrest, prependUnit] at h
      split_ifs at h
      · -- a pair is a code point past all halves
        obtain ⟨rfl, -⟩ := List.cons.inj h
        have hbound := isLowHalf_iff.mp low
        unfold pairCode at hbound
        omega
      · obtain ⟨rfl, -⟩ := List.cons.inj h
        exact low

/-- A unit that is not paired is a code point of its own. -/
theorem codePoints_of_not_paired {u : UInt16} {t : Text} (alone : ¬ Paired u t) :
    codePoints (u :: t) = u.toNat :: codePoints t := by
  have hstep : codePoints (u :: t) = prependUnit u (codePoints t) := rfl
  rw [hstep]
  cases hrest : codePoints t with
  | nil => rfl
  | cons next others =>
    rw [prependUnit, if_neg]
    intro h
    obtain ⟨hhigh, hlow⟩ := Bool.and_eq_true_iff.mp h
    exact alone ⟨hhigh, low_of_codePoints hrest hlow⟩

theorem charOf_half {u : UInt16} (half : IsHalf u) : charOf u.toNat = replacement := by
  have hinvalid : ¬ u.toNat.isValidChar := by
    obtain ⟨hlow, hhigh⟩ := half
    unfold Nat.isValidChar
    omega
  rw [charOf, if_neg hinvalid]

theorem chars_of_not_paired {u : UInt16} {t : Text} (alone : ¬ Paired u t) :
    chars (u :: t) = charOf u.toNat :: chars t := by
  rw [chars, codePoints_of_not_paired alone]
  rfl

theorem chars_ofChar_append (c : Char) (t : Text) : chars (ofChar c ++ t) = c :: chars t := by
  rw [chars, codePoints_ofChar_append, List.map_cons, charOf_toNat]
  rfl

/-- A unit that is no half is a character. -/
theorem ofChar_of_not_half {u : UInt16} (whole : ¬ IsHalf u) : ∃ c : Char, [u] = ofChar c := by
  have hsize : u.toNat < 0x10000 := u.toNat_lt_size
  have hvalid : u.toNat.isValidChar := by
    unfold IsHalf at whole
    unfold Nat.isValidChar
    omega
  refine ⟨Char.ofNat u.toNat, ?_⟩
  have hcode : (Char.ofNat u.toNat).toNat = u.toNat := by
    rw [Char.ofNat, dif_pos hvalid]
    rfl
  rw [ofChar, hcode, if_pos hsize, UInt16.ofNat_toNat]

/-- A pair of halves is a character. -/
theorem ofChar_of_pair {high low : UInt16} (hhigh : isHighHalf high = true)
    (hlow : isLowHalf low.toNat = true) : ∃ c : Char, [high, low] = ofChar c := by
  obtain ⟨hh, hh'⟩ := isHighHalf_iff.mp hhigh
  obtain ⟨hl, hl'⟩ := isLowHalf_iff.mp hlow
  obtain ⟨offset, hoffset⟩ :
      ∃ n, n = (high.toNat - 0xD800) * 0x400 + (low.toNat - 0xDC00) := ⟨_, rfl⟩
  have hvalid : (0x10000 + offset).isValidChar := by
    unfold Nat.isValidChar
    omega
  have hcode : (Char.ofNat (0x10000 + offset)).toNat = 0x10000 + offset := by
    rw [Char.ofNat, dif_pos hvalid]
    rfl
  have hfirst : 0xD800 + (0x10000 + offset - 0x10000) / 0x400 = high.toNat := by omega
  have hsecond : 0xDC00 + (0x10000 + offset - 0x10000) % 0x400 = low.toNat := by omega
  refine ⟨Char.ofNat (0x10000 + offset), ?_⟩
  rw [ofChar, hcode, if_neg (by omega)]
  dsimp only
  rw [hfirst, hsecond, UInt16.ofNat_toNat, UInt16.ofNat_toNat]

/-- Every text reads as some characters. -/
theorem exists_reads (t : Text) : ∃ cs, Reads t cs := by
  induction hlength : t.length using Nat.strong_induction_on generalizing t with
  | _ n ih =>
    cases t with
    | nil => exact ⟨[], .nil⟩
    | cons u rest =>
      rw [List.length_cons] at hlength
      obtain ⟨cs, hcs⟩ := ih rest.length (by omega) rest rfl
      by_cases hpaired : Paired u rest
      · obtain ⟨hhigh, low, others, rfl, hlow⟩ := hpaired
        obtain ⟨c, hc⟩ := ofChar_of_pair hhigh hlow
        rw [List.length_cons] at hlength
        obtain ⟨ds, hds⟩ := ih others.length (by omega) others rfl
        refine ⟨c :: ds, ?_⟩
        change Reads ([u, low] ++ others) (c :: ds)
        rw [hc]
        exact .char c hds
      · by_cases hhalf : IsHalf u
        · exact ⟨_, .lone hhalf hpaired hcs⟩
        · obtain ⟨c, hc⟩ := ofChar_of_not_half hhalf
          refine ⟨c :: cs, ?_⟩
          change Reads ([u] ++ rest) (c :: cs)
          rw [hc]
          exact .char c hcs

theorem Reads.eq_chars {t : Text} {cs : List Char} (reads : Reads t cs) : cs = chars t := by
  induction reads with
  | nil => rfl
  | char c rest ih => rw [chars_ofChar_append, ih]
  | lone half alone rest ih => rw [chars_of_not_paired alone, charOf_half half, ih]

/-- A text reads as its characters and as nothing else. -/
theorem reads_iff {t : Text} {cs : List Char} : Reads t cs ↔ cs = chars t := by
  constructor
  · exact Reads.eq_chars
  · rintro rfl
    obtain ⟨cs, hcs⟩ := exists_reads t
    rwa [← hcs.eq_chars]

/-! ### The bytes of one character -/

/-- Bytes that complete a character that has begun, and the code point they complete it to. -/
inductive Completes : Begun → Bytes → Nat → Prop where
  | last {p : Begun} {b : UInt8} (one : p.missing = 1)
    (range : p.low ≤ b.toNat ∧ b.toNat ≤ p.high) :
    Completes p [b] (p.bits * 0x40 + (b.toNat - 0x80))
  | next {p : Begun} {b : UInt8} {bs : Bytes} {code : Nat} (more : p.missing ≠ 1)
    (range : p.low ≤ b.toNat ∧ b.toNat ≤ p.high)
    (rest : Completes ⟨p.missing - 1, 0x80, 0xBF, p.bits * 0x40 + (b.toNat - 0x80)⟩ bs code) :
    Completes p (b :: bs) code

theorem Completes.foldl {p : Begun} {bs : Bytes} {code : Nat} (completes : Completes p bs code)
    (w : List Char) : bs.foldl Decoder.step ⟨w, some p⟩ = ⟨charOf code :: w, none⟩ := by
  induction completes with
  | last one range =>
    rw [List.foldl_cons, List.foldl_nil, Decoder.step]
    dsimp only
    rw [if_pos range, if_pos one]
  | next more range rest ih =>
    rw [List.foldl_cons, Decoder.step]
    dsimp only
    rw [if_pos range, if_neg more, ih]

/-- Up to the last byte the character stays open, and nothing is written for it. -/
theorem Completes.foldl_take {p : Begun} {bs : Bytes} {code : Nat} (completes : Completes p bs code)
    (w : List Char) {k : Nat} (cut : k < bs.length) :
    ∃ q, (bs.take k).foldl Decoder.step ⟨w, some p⟩ = ⟨w, some q⟩ := by
  induction completes generalizing k with
  | last one range =>
    obtain rfl : k = 0 := by simpa using cut
    exact ⟨_, rfl⟩
  | next more range rest ih =>
    cases k with
    | zero => exact ⟨_, rfl⟩
    | succ k =>
      obtain ⟨q, hq⟩ := ih (Nat.lt_of_succ_lt_succ cut)
      refine ⟨q, ?_⟩
      rw [List.take_succ_cons, List.foldl_cons, Decoder.step]
      dsimp only
      rw [if_pos range, if_neg more, hq]

theorem toNat_byte {n : Nat} (h : n < 256) : (UInt8.ofNat n).toNat = n :=
  UInt8.toNat_ofNat_of_lt' h

/-- The last byte carries the last six bits. -/
theorem Completes.of_last {p : Begun} {code : Nat} (one : p.missing = 1) (bits : p.bits = code / 64)
    (range : p.low ≤ code % 64 + 128 ∧ code % 64 + 128 ≤ p.high) :
    Completes p [UInt8.ofNat (code % 64 + 128)] code := by
  have hbyte : (UInt8.ofNat (code % 64 + 128)).toNat = code % 64 + 128 := toNat_byte (by omega)
  have hlast := Completes.last one (hbyte.symm ▸ range)
  rw [hbyte, bits] at hlast
  have hcode : code / 64 * 0x40 + (code % 64 + 128 - 0x80) = code := by omega
  rwa [hcode] at hlast

/-- A byte before the last carries six further bits. -/
theorem Completes.of_next {p : Begun} {bs : Bytes} {bits code missing : Nat}
    (more : p.missing = missing + 1) (some : missing ≠ 0) (before : p.bits = bits / 64)
    (range : p.low ≤ bits % 64 + 128 ∧ bits % 64 + 128 ≤ p.high)
    (rest : Completes ⟨missing, 0x80, 0xBF, bits⟩ bs code) :
    Completes p (UInt8.ofNat (bits % 64 + 128) :: bs) code := by
  have hbyte : (UInt8.ofNat (bits % 64 + 128)).toNat = bits % 64 + 128 := toNat_byte (by omega)
  have hbits : p.bits * 0x40 + ((UInt8.ofNat (bits % 64 + 128)).toNat - 0x80) = bits := by
    rw [hbyte, before]
    omega
  have hmissing : p.missing - 1 = missing := by omega
  refine .next (by omega) (hbyte.symm ▸ range) ?_
  rw [hbits, hmissing]
  exact rest

/-- What the first of several bytes opens. -/
theorem firstByte_two {n : Nat} (h : 2 ≤ n ∧ n < 32) :
    firstByte (n + 192) = .opens ⟨1, 0x80, 0xBF, n⟩ := by
  rw [firstByte, if_neg (by omega), if_neg (by omega), if_pos (by omega), Nat.add_sub_cancel]

theorem firstByte_three {n : Nat} (h : n < 16) :
    firstByte (n + 224) =
      .opens ⟨2, if n = 0 then 0xA0 else 0x80, if n = 13 then 0x9F else 0xBF, n⟩ := by
  have hfirst : n + 224 = 0xE0 ↔ n = 0 := by omega
  have hlast : n + 224 = 0xED ↔ n = 13 := by omega
  rw [firstByte, if_neg (by omega), if_neg (by omega), if_neg (by omega), if_pos (by omega),
    Nat.add_sub_cancel]
  simp only [hfirst, hlast]

theorem firstByte_four {n : Nat} (h : n < 5) :
    firstByte (n + 240) =
      .opens ⟨3, if n = 0 then 0x90 else 0x80, if n = 4 then 0x8F else 0xBF, n⟩ := by
  have hfirst : n + 240 = 0xF0 ↔ n = 0 := by omega
  have hlast : n + 240 = 0xF4 ↔ n = 4 := by omega
  rw [firstByte, if_neg (by omega), if_neg (by omega), if_neg (by omega), if_neg (by omega),
    if_pos (by omega), Nat.add_sub_cancel]
  simp only [hfirst, hlast]

theorem completes_one (code : Nat) :
    Completes ⟨1, 0x80, 0xBF, code / 64⟩ [UInt8.ofNat (code % 64 + 128)] code :=
  .of_last rfl rfl (by dsimp only; omega)

theorem completes_two {low high code : Nat}
    (range : low ≤ code / 64 % 64 + 128 ∧ code / 64 % 64 + 128 ≤ high) :
    Completes ⟨2, low, high, code / 4096⟩
      [UInt8.ofNat (code / 64 % 64 + 128), UInt8.ofNat (code % 64 + 128)] code := by
  have hbits : code / 4096 = code / 64 / 64 := (Nat.div_div_eq_div_mul code 64 64).symm
  exact .of_next rfl one_ne_zero hbits range (completes_one code)

theorem completes_three {low high code : Nat}
    (range : low ≤ code / 4096 % 64 + 128 ∧ code / 4096 % 64 + 128 ≤ high) :
    Completes ⟨3, low, high, code / 262144⟩ [UInt8.ofNat (code / 4096 % 64 + 128),
      UInt8.ofNat (code / 64 % 64 + 128), UInt8.ofNat (code % 64 + 128)] code := by
  have hbits : code / 262144 = code / 4096 / 64 := (Nat.div_div_eq_div_mul code 4096 64).symm
  exact .of_next rfl two_ne_zero hbits range (completes_two (by omega))

/-- A character is one whole byte, or a byte that opens it and bytes that complete it. -/
theorem utf8_cases (c : Char) :
    (∃ b, String.utf8EncodeChar c = [b] ∧ firstByte b.toNat = .whole c.toNat) ∨
      ∃ b p bs, String.utf8EncodeChar c = b :: bs ∧ firstByte b.toNat = .opens p ∧
        Completes p bs c.toNat := by
  have hcode := toNat_lt_or_gt c
  have htoNat : c.toNat = c.val.toNat := rfl
  rw [htoNat] at hcode ⊢
  rw [String.utf8EncodeChar]
  generalize c.val.toNat = code at hcode
  by_cases hone : code ≤ 127
  · rw [if_pos hone]
    refine Or.inl ⟨_, rfl, ?_⟩
    rw [toNat_byte (by omega), firstByte, if_pos (by omega)]
  rw [if_neg hone]
  by_cases htwo : code ≤ 2047
  · have hfirst : (UInt8.ofNat (code / 64 % 32 + 192)).toNat = code / 64 + 192 := by
      rw [toNat_byte (by omega)]
      omega
    have hopens := firstByte_two (n := code / 64) (by omega)
    rw [← hfirst] at hopens
    rw [if_pos htwo]
    exact Or.inr ⟨_, _, _, rfl, hopens, completes_one code⟩
  rw [if_neg htwo]
  by_cases hthree : code ≤ 65535
  · have hfirst : (UInt8.ofNat (code / 4096 % 16 + 224)).toNat = code / 4096 + 224 := by
      rw [toNat_byte (by omega)]
      omega
    have hopens := firstByte_three (n := code / 4096) (by omega)
    rw [← hfirst] at hopens
    rw [if_pos hthree]
    refine Or.inr ⟨_, _, _, rfl, hopens, completes_two ?_⟩
    -- neither an overlong form nor a half
    split_ifs <;> omega
  · have hfirst : (UInt8.ofNat (code / 262144 % 8 + 240)).toNat = code / 262144 + 240 := by
      rw [toNat_byte (by omega)]
      omega
    have hopens := firstByte_four (n := code / 262144) (by omega)
    rw [← hfirst] at hopens
    rw [if_neg hthree]
    refine Or.inr ⟨_, _, _, rfl, hopens, completes_three ?_⟩
    -- neither an overlong form nor past the last code point
    split_ifs <;> omega

/-- The bytes of a character, where none is open, write it. -/
theorem foldl_character (c : Char) (w : List Char) :
    (String.utf8EncodeChar c).foldl Decoder.step ⟨w, none⟩ = ⟨c :: w, none⟩ := by
  have hfirst (b : UInt8) : Decoder.step ⟨w, none⟩ b = Decoder.start ⟨w, none⟩ b.toNat := rfl
  obtain ⟨b, hbytes, hwhole⟩ | ⟨b, p, bs, hbytes, hopens, hcompletes⟩ := utf8_cases c
  · rw [hbytes, List.foldl_cons, List.foldl_nil, hfirst, Decoder.start, hwhole]
    dsimp only
    rw [charOf_toNat]
  · rw [hbytes, List.foldl_cons, hfirst, Decoder.start, hopens]
    dsimp only
    rw [hcompletes.foldl, charOf_toNat]

/-- A beginning of its bytes leaves it open. -/
theorem foldl_take_character (c : Char) (w : List Char) {k : Nat} (pos : 0 < k)
    (cut : k < (String.utf8EncodeChar c).length) :
    ∃ p, ((String.utf8EncodeChar c).take k).foldl Decoder.step ⟨w, none⟩ = ⟨w, some p⟩ := by
  obtain ⟨k, rfl⟩ : ∃ n, k = n + 1 := ⟨k - 1, by omega⟩
  obtain ⟨b, hbytes, -⟩ | ⟨b, p, bs, hbytes, hopens, hcompletes⟩ := utf8_cases c
  · rw [hbytes, List.length_singleton] at cut
    omega
  · rw [hbytes, List.length_cons] at cut
    have hfirst : Decoder.step ⟨w, none⟩ b = ⟨w, some p⟩ := by
      change Decoder.start ⟨w, none⟩ b.toNat = _
      rw [Decoder.start, hopens]
    rw [hbytes, List.take_succ_cons, List.foldl_cons, hfirst]
    exact hcompletes.foldl_take w (Nat.lt_of_succ_lt_succ cut)

/-! ### Bytes that are cut -/

/-- The bytes of characters. -/
def utf8 (cs : List Char) : Bytes := cs.flatMap String.utf8EncodeChar

theorem utf8_cons (c : Char) (cs : List Char) :
    utf8 (c :: cs) = String.utf8EncodeChar c ++ utf8 cs := rfl

/-- Kept from some characters is their longest beginning whose bytes find room. -/
structure LongestFit (room : Nat) (cs kept : List Char) : Prop where
  beginning : kept <+: cs
  fits : (utf8 kept).length ≤ room
  longest : ∀ longer, longer <+: cs → (utf8 longer).length ≤ room → longer <+: kept

theorem LongestFit.of_fits {room : Nat} {cs kept : List Char} (h : LongestFit room cs kept)
    (room_for_all : (utf8 cs).length ≤ room) : kept = cs :=
  h.beginning.eq_of_length_le (h.longest cs (List.prefix_refl cs) room_for_all).length_le

/-- The longest beginning of some characters whose bytes find room, from its front. -/
def fitting (room : Nat) : List Char → List Char
  | [] => []
  | c :: cs =>
    if (String.utf8EncodeChar c).length ≤ room then
      c :: fitting (room - (String.utf8EncodeChar c).length) cs
    else []

theorem longestFit_fitting (room : Nat) (cs : List Char) :
    LongestFit room cs (fitting room cs) := by
  induction cs generalizing room with
  | nil => exact ⟨List.prefix_refl [], Nat.zero_le room, fun _ hlonger _ => hlonger⟩
  | cons c cs ih =>
    have hone (kept : List Char) : (utf8 (c :: kept)).length =
        (String.utf8EncodeChar c).length + (utf8 kept).length := by
      rw [utf8_cons, List.length_append]
    rw [fitting]
    split_ifs with hfits
    · obtain ⟨hbeginning, hroom, hlongest⟩ := ih (room - (String.utf8EncodeChar c).length)
      refine ⟨(List.prefix_cons_inj c).mpr hbeginning, ?_, ?_⟩
      · rw [hone]
        omega
      · rintro (_ | ⟨d, longer⟩) hlonger hsize
        · exact List.nil_prefix
        · obtain ⟨rfl, hrest⟩ := List.cons_prefix_cons.mp hlonger
          rw [hone] at hsize
          exact (List.prefix_cons_inj d).mpr (hlongest longer hrest (by omega))
    · refine ⟨List.nil_prefix, Nat.zero_le room, ?_⟩
      rintro (_ | ⟨d, longer⟩) hlonger hsize
      · exact List.nil_prefix
      · obtain ⟨rfl, -⟩ := List.cons_prefix_cons.mp hlonger
        rw [hone] at hsize
        omega

/-- Bytes that end before those of some characters write the characters that are whole, and one is
left open exactly when more bytes are there than these take up. -/
theorem foldl_take_utf8 (cs : List Char) (room : Nat) (w : List Char) :
    ∃ begun, ((utf8 cs).take room).foldl Decoder.step ⟨w, none⟩ =
        ⟨(fitting room cs).reverse ++ w, begun⟩ ∧
      (begun.isSome ↔ (utf8 (fitting room cs)).length < min room (utf8 cs).length) := by
  induction cs generalizing room w with
  | nil =>
    refine ⟨none, by rw [utf8, List.flatMap_nil, List.take_nil]; rfl, ?_⟩
    simp [fitting]
  | cons c cs ih =>
    rw [fitting, utf8_cons, List.take_append, List.foldl_append]
    split_ifs with hfits
    · obtain ⟨begun, hfold, hopen⟩ := ih (room - (String.utf8EncodeChar c).length) (c :: w)
      refine ⟨begun, ?_, ?_⟩
      · rw [List.take_of_length_le hfits, foldl_character, hfold, List.reverse_cons,
          List.append_assoc, List.singleton_append]
      · rw [hopen, utf8_cons, List.length_append, List.length_append]
        omega
    · have hrest : room - (String.utf8EncodeChar c).length = 0 := by omega
      rw [hrest, List.take_zero, List.foldl_nil, List.length_append]
      by_cases hnone : room = 0
      · refine ⟨none, by rw [hnone]; rfl, ?_⟩
        rw [hnone]
        simp
      · obtain ⟨p, hopen⟩ := foldl_take_character c w (Nat.pos_of_ne_zero hnone) (by omega)
        refine ⟨some p, hopen, iff_of_true rfl ?_⟩
        change 0 < _
        omega

/-- What remains of a character that is cut reads as one replacement character. -/
theorem decodeChars_take (cs : List Char) (room : Nat) :
    decodeChars ((utf8 cs).take room) = fitting room cs ++
      if (utf8 (fitting room cs)).length < min room (utf8 cs).length
      then [replacement] else [] := by
  obtain ⟨begun, hfold, hopen⟩ := foldl_take_utf8 cs room []
  have hstart : decodeChars ((utf8 cs).take room) =
      (((utf8 cs).take room).foldl Decoder.step ⟨[], none⟩).finish := rfl
  rw [hstart, hfold, List.append_nil]
  cases begun with
  | none =>
    have hwhole := mt hopen.mpr Bool.false_ne_true
    rw [if_neg hwhole, List.append_nil]
    exact List.reverse_reverse _
  | some p =>
    have hcut := hopen.mp rfl
    rw [if_pos hcut]
    change (replacement :: (fitting room cs).reverse).reverse = _
    rw [List.reverse_cons, List.reverse_reverse]

/-- A replacement character at the end is no mark at the front. -/
theorem dropMark_append_replacement (cs : List Char) :
    dropMark (cs ++ [replacement]) = dropMark cs ++ [replacement] := by
  cases cs with
  | nil => rfl
  | cons c cs =>
    rw [List.cons_append, dropMark, dropMark]
    split_ifs <;> rfl

theorem flatMap_encode (ts : List Text) : ts.flatMap encode = utf8 (ts.flatMap chars) :=
  List.flatMap_assoc.symm

end Text

namespace ReportBuffer

open Text

/-- What a buffer of whole capacity shows: the characters that fit, and one replacement character
where a character is cut. -/
theorem text_printAll (limit : Number) (capacity : Nat) (ts : List Text) :
    ((new limit capacity).printAll ts).text =
      String.ofList (dropMark (fitting capacity (ts.flatMap chars)) ++
        if (utf8 (fitting capacity (ts.flatMap chars))).length <
            min capacity (utf8 (ts.flatMap chars)).length
        then [replacement] else []) := by
  have hcontent : ((new limit capacity).printAll ts).content.toList =
      (utf8 (ts.flatMap chars)).take capacity := by
    rw [printAll_new, content_holding, flatMap_encode]
  rw [text, hcontent, decode, decodeChars_take]
  split_ifs
  · rw [dropMark_append_replacement]
  · rw [List.append_nil, List.append_nil]

/-- Characters that all fit are shown as they are. -/
theorem text_of_fits (limit : Number) {capacity : Nat} {ts : List Text}
    (fits : (utf8 (ts.flatMap chars)).length ≤ capacity) :
    ((new limit capacity).printAll ts).text = String.ofList (dropMark (ts.flatMap chars)) := by
  have hall : fitting capacity (ts.flatMap chars) = ts.flatMap chars :=
    (longestFit_fitting capacity _).of_fits fits
  rw [text_printAll, hall, Nat.min_eq_right fits, if_neg (Nat.lt_irrefl _), List.append_nil]

end ReportBuffer

namespace EntryTree

open Reading

variable {ρ σ : Type}

/-- Where the windows of an entry reach over its whole content, its text is what the buffer of each
rendering shows. -/
theorem text_of_covering {tree : EntryTree ρ} {serve : ρ → Reader σ} {path : String} {content : ρ}
    {render : Rendering σ Unit} {state : Nat → σ} {sizeLimit capacity c : Nat} {ts : List Text}
    (there : tree.content path = .ok content)
    (serves : serve content = reader (Bounds.ofCounts sizeLimit capacity) render)
    (renders : RendersInTurn render (Bounds.buffer sizeLimit capacity) state fun _ => ts)
    (pos : 1 ≤ c) (small : c < Number.exactBound)
    (covers : (Bounds.contentOf sizeLimit capacity ts).length ≤ c * (sizeLimit / c + 1)) :
    ((tree.text serve path (.ofCount c)).outcome (state 0)).1 =
      .ok ((Bounds.buffer sizeLimit capacity).printAll ts).text := by
  obtain ⟨last, ends, goes⟩ := exists_last sizeLimit pos
    fun _ => Bounds.contentOf sizeLimit capacity ts
  have hdrain := (drain_outcome renders pos small ends goes).1
  have hbytes := flatMap_chunkAt sizeLimit pos ends goes
  rw [List.take_of_length_le covers] at hbytes
  rw [text, there, Effect.outcome_bind_ok (Process.outcome_ok _ _), serves,
    Effect.outcome_bind_ok hdrain, Effect.outcome_pure, hbytes]
  rfl

end EntryTree

namespace ReportBuffer

open Text Reading

/-- A buffer shows the characters that its texts read as, one text after the other. Where their
bytes fit it shows them all; otherwise it shows the longest beginning that fits, and one replacement
character where this leaves room that a cut character took. One byte-order mark at the front is
dropped. An entry whose windows reach over the whole content has the same text, in steps of any
size. -/
theorem text_whole_or_cut (limit : Number) (capacity : Nat) (ts : List Text) :
    let shown := ts.flatMap chars
    let out := (new limit capacity).printAll ts
    (∀ t cs, Reads t cs ↔ cs = chars t) ∧
    create limit (.ofCount capacity) = .ok (new limit (min capacity mostBytes)) ∧
    ((utf8 shown).length ≤ capacity → out.text = String.ofList (dropMark shown)) ∧
    (capacity < (utf8 shown).length → ∃ kept, LongestFit capacity shown kept ∧
      out.text = String.ofList (dropMark kept ++
        if (utf8 kept).length < capacity then [replacement] else [])) ∧
    ∀ {ρ σ : Type} (tree : EntryTree ρ) (serve : ρ → Reader σ) (path : String) (content : ρ)
      (render : Rendering σ Unit) (state : Nat → σ) (sizeLimit c : Nat),
      tree.content path = .ok content →
      serve content = reader (Bounds.ofCounts sizeLimit capacity) render →
      RendersInTurn render (Bounds.buffer sizeLimit capacity) state (fun _ => ts) →
      1 ≤ c → c < Number.exactBound →
      (Bounds.contentOf sizeLimit capacity ts).length ≤ c * (sizeLimit / c + 1) →
      ((tree.text serve path (.ofCount c)).outcome (state 0)).1 =
        .ok ((new (.ofCount sizeLimit) (min capacity mostBytes)).printAll ts).text := by
  intro shown out
  refine ⟨fun _ _ => reads_iff, create_ofCount limit capacity, text_of_fits limit, ?_, ?_⟩
  · intro hcut
    have htext := text_printAll limit capacity ts
    rw [Nat.min_eq_left (Nat.le_of_lt hcut)] at htext
    exact ⟨fitting capacity shown, longestFit_fitting capacity shown, htext⟩
  · intro ρ σ tree serve path content render state sizeLimit c there serves renders pos small covers
    exact EntryTree.text_of_covering there serves renders pos small covers

/-- A mark at the front, a pair of halves in two texts, and a character of which two bytes fit: an
entry read in steps of five shows three replacement characters, where there is room for all it shows
two. -/
theorem text_whole_or_cut_split_pair :
    let ts := [ofString "\uFEFFa" ++ [0xD83D], [0xDE00], ofString "😀"]
    let tree : EntryTree Unit := ⟨"/dri", ["/dri"], [("/dri/notes", ())]⟩
    let serve : Unit → Reader Nat := fun _ =>
      reader (Bounds.ofCounts 12 12) (scheduled fun _ => ts)
    (utf8 (ts.flatMap chars)).length ≤ 14 ∧ 12 < (utf8 (ts.flatMap chars)).length ∧
      ((new 12 14).printAll ts).text = "a\uFFFD\uFFFD😀" ∧
      (∃ kept, LongestFit 12 (ts.flatMap chars) kept ∧
        ((new 12 12).printAll ts).text = String.ofList (dropMark kept ++
          if (utf8 kept).length < 12 then [replacement] else [])) ∧
      tree.content "/dri/notes" = .ok () ∧
      RendersInTurn (scheduled fun _ => ts) (Bounds.buffer 12 12) id (fun _ => ts) ∧
      (Bounds.contentOf 12 12 ts).length ≤ 5 * (12 / 5 + 1) ∧
      ((tree.text serve "/dri/notes" (.ofCount 5)).outcome 0).1 = .ok "a\uFFFD\uFFFD\uFFFD" := by
  intro ts tree serve
  have hfits : (utf8 (ts.flatMap chars)).length ≤ 14 := by decide
  have hcut : 12 < (utf8 (ts.flatMap chars)).length := by decide
  have hturns := scheduled_rendersInTurn (fun _ => ts) (Bounds.sound_buffer 12 12)
  have hcovers : (Bounds.contentOf 12 12 ts).length ≤ 5 * (12 / 5 + 1) :=
    (Bounds.contentOf_length_le 12 12 ts).trans (by decide)
  have hwhole := (text_whole_or_cut 12 14 ts).2.2.1 hfits
  obtain ⟨-, -, -, hkept, hcat⟩ := text_whole_or_cut 12 12 ts
  have htext := hcat tree serve "/dri/notes" () (scheduled fun _ => ts) id 12 5 rfl rfl hturns
    (by decide) (by decide) hcovers
  refine ⟨hfits, hcut, ?_, hkept hcut, rfl, hturns, hcovers, ?_⟩
  · rw [hwhole]
    decide
  · refine htext.trans (congrArg Except.ok ?_)
    rw [text_printAll]
    decide

end ReportBuffer

end DeviceReports
