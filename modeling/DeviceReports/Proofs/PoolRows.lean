import DeviceReports.Device.Sample
import DeviceReports.Proofs.AcceptedSettings
import DeviceReports.Proofs.ReadTables
import DeviceReports.Proofs.ScaledFigures
import DeviceReports.Report.BufferPool

/-!
# Rows of a buffer pool

The report on a buffer pool is a table of the orders that have buffers, and below it the list
indices of the buffers in lines of one length. A line is ended before the next one begins and once
at the end, so no line is empty unless there are no buffers at all.

Pages are a segment count times a power of two, and kilobytes are pages times a page size over 1024:
a chain of scalings by powers of two, which is exact as far as its figures are. The power itself has
to be a value, though, even where there are no segments to multiply it by.
-/

set_option autoImplicit false

namespace DeviceReports

/-! ### Lists in groups -/

/-- A list cut into groups of `w` members, of which only the last may have fewer. None is empty. -/
structure Wrapped {α : Type} (w : Nat) (xs : List α) (groups : List (List α)) : Prop where
  whole : groups.flatten = xs
  full : ∀ g ∈ groups.dropLast, g.length = w
  last : ∀ g ∈ groups.getLast?, 1 ≤ g.length ∧ g.length ≤ w

namespace Wrapped

variable {α : Type} {w : Nat} {xs ys : List α} {groups : List (List α)}

theorem nil (w : Nat) : Wrapped w ([] : List α) [] := ⟨rfl, nofun, nofun⟩

theorem single (nonempty : xs ≠ []) (short : xs.length ≤ w) : Wrapped w xs [xs] where
  whole := List.flatten_singleton
  full := nofun
  last := by
    rintro g ⟨⟩
    exact ⟨List.length_pos_iff.mpr nonempty, short⟩

/-- A full group goes before others. -/
theorem cons (h : Wrapped w ys groups) (more : groups ≠ []) (full : xs.length = w) :
    Wrapped w (xs ++ ys) (xs :: groups) where
  whole := by rw [List.flatten_cons, h.whole]
  full := by
    rw [List.dropLast_cons_of_ne_nil more]
    exact List.forall_mem_cons.mpr ⟨full, h.full⟩
  last := by
    rw [List.getLast?_cons_of_ne_nil more]
    exact h.last

end Wrapped

namespace Report.BufferPool

open Column Number

/-! ### Pages and kilobytes -/

section Pages

variable {s : Settings} {c : BufferClass} {q : Rat} {z : Int} {k : Nat}

/-- The pages of a class stand for its segments times the power of its order. -/
theorem pages_standsFor (segments : c.segCount = .finite q) (magnitude : IsMagnitude q)
    (order : c.pageOrder = .finite z) (high : z < 1024) (few : q < exactBound)
    (range : q * 2 ^ z < exactBound) :
    ∃ p, pages c = .finite p ∧ StandsFor (-1021) p (q * 2 ^ z) := by
  obtain ⟨t, ht, hcases⟩ := twoTo_intCast high
  have hpages : pages c = ofRat (q * t) := by
    rw [pages, segments, order, ht]
    rfl
  rw [exactBound_eq] at few range
  rw [hpages]
  rcases hcases with ⟨rfl, -⟩ | ⟨hnonneg, hle, hz⟩
  · exact (StandsFor.of_magnitude magnitude (-1021 - z)).scaled (by omega) (by decide) (by decide)
      (lt_range range.le (by decide))
  · -- the power is below the least value, and the pages are next to nothing
    have hsmall {r : Rat} (hr : 0 ≤ r) (hrl : r ≤ 2 ^ (-1074 : Int)) :
        0 ≤ q * r ∧ q * r ≤ 2 ^ (-1021 : Int) := by
      refine ⟨mul_nonneg magnitude.nonneg hr, ?_⟩
      calc q * r ≤ 2 ^ (53 : Int) * 2 ^ (-1074 : Int) :=
            mul_le_mul few.le hrl hr (two_zpow_pos _).le
        _ = 2 ^ (-1021 : Int) := (two_zpow_add _ _).symm
    obtain ⟨hrounded, hroundedle⟩ := hsmall hnonneg hle
    obtain ⟨hexact, hexactle⟩ := hsmall (two_zpow_pos z).le (two_zpow_le (by omega))
    exact StandsFor.ofRat (by decide) (by decide) hrounded hroundedle hexact hexactle

/-- The kilobytes of a class are the whole part of what they would be without rounding. -/
theorem kilobytes_eq (pageSize : s.pageSize = .ofCount (2 ^ k)) (wide : k < 1024) {p : Rat}
    (h : pages c = .finite p) (stands : StandsFor (-1021) p q)
    (range : q * 2 ^ k / 1024 < exactBound) :
    kilobytes s c = .ofCount ⌊q * 2 ^ k / 1024⌋₊ := by
  have hshift : q * 2 ^ k / 1024 = q * 2 ^ (k : Int) * 2 ^ (-10 : Int) := by
    rw [zpow_natCast, div_eq_mul_inv]
    norm_num
  rw [hshift, exactBound_eq] at range
  rw [hshift]
  have hbytes : q * 2 ^ (k : Int) ≤ 2 ^ (63 : Int) :=
    calc q * 2 ^ (k : Int) = q * 2 ^ (k : Int) * 2 ^ (-10 : Int) * 2 ^ (10 : Int) := by
          rw [mul_assoc _ _ ((2 : Rat) ^ (10 : Int)), ← two_zpow_add, Int.add_left_neg, zpow_zero,
            mul_one]
      _ ≤ 2 ^ (53 : Int) * 2 ^ (10 : Int) :=
        mul_le_mul_of_nonneg_right range.le (two_zpow_pos 10).le
      _ = 2 ^ (63 : Int) := (two_zpow_add _ _).symm
  obtain ⟨b, hb, hbstands⟩ := stands.scaled (i := k) (l := 2) (by omega) (by decide) (by decide)
    (lt_range hbytes (by decide))
  obtain ⟨y, hy, hystands⟩ :=
    hbstands.scaled (i := -10) (l := -8) (by decide) (by decide) (by decide)
    (lt_range range.le (by decide))
  have hproduct : pages c * s.pageSize = .finite b := by
    rw [h, pageSize, ← hb]
    change ofRat (p * ((2 ^ k : Nat) : Rat)) = _
    rw [zpow_natCast, Nat.cast_pow, Nat.cast_ofNat]
  have hquotient : pages c * s.pageSize / 1024 = .finite y := by
    have hdivisor : (1024 : Number) = .finite 1024 := ofNat_eq_ofCount (by decide)
    have hinverse : b / 1024 = b * 2 ^ (-10 : Int) := by
      rw [div_eq_mul_inv]
      norm_num
    rw [hproduct, hdivisor, ← hy, ← hinverse]
    rfl
  rw [kilobytes, hquotient, floor_finite hystands.nonneg.1, hystands.floor_eq (by decide)]

end Pages

/-! ### Rows -/

/-- The columns of a row. -/
def columns (s : Settings) (order : Nat) (c : BufferClass) : List Text :=
  [decimal order 2, decimal c.bufSize 8, decimal c.bufCount 5, decimal c.freeCount.number 5,
    decimal c.segCount 5, decimal (pages c) 5, decimal (kilobytes s c) 5]

/-- A row without the end of its line. -/
def line (s : Settings) (order : Nat) (c : BufferClass) : Text := spaced (columns s order c)

section Rows

variable (s : Settings) (order : Nat) (c : BufferClass)

theorem row_eq : row s order c = .ok (line s order c ++ [Text.newline]) :=
  joined_spaced (columns s order c)

theorem words_line : (line s order c).words =
    [written order, written c.bufSize, written c.bufCount, written c.freeCount.number,
      written c.segCount, written (pages c), written (kilobytes s c)] := by
  simp only [line, words_spaced, columns, List.flatMap_cons, List.flatMap_nil, words_decimal,
    List.cons_append, List.nil_append]

theorem printable_line : (line s order c).Printable := by
  refine printable_spaced fun t ht => ?_
  simp only [columns, List.mem_cons, List.not_mem_nil, or_false] at ht
  rcases ht with rfl | rfl | rfl | rfl | rfl | rfl | rfl <;> exact printable_decimal _ _

end Rows

/-- The orders that have a row, each with its class. -/
def listed (s : Settings) (pool : DmaPool) : List (Nat × BufferClass) :=
  (orders s).filterMap (listed? pool)

section Listed

variable {s : Settings} {pool : DmaPool} {top : Nat}

theorem listed?_eq_some {o : Nat} {r : Nat × BufferClass} :
    listed? pool o = some r ↔ r.1 = o ∧ pool.classAt? o = some r.2 ∧ r.2.bufCount ≠ 0 := by
  obtain ⟨o', c⟩ := r
  rw [listed?]
  cases hclass : pool.classAt? o with
  | none => simp
  | some c' =>
    by_cases hcount : c'.bufCount = 0
    · simp only [hcount, if_true, reduceCtorEq, false_iff]
      rintro ⟨-, hc, hne⟩
      exact hne (Option.some.inj hc ▸ hcount)
    · simp only [hcount, if_false, Option.some.injEq, Prod.mk.injEq]
      constructor
      · rintro ⟨rfl, rfl⟩
        exact ⟨rfl, rfl, hcount⟩
      · rintro ⟨rfl, rfl, -⟩
        exact ⟨rfl, rfl⟩

theorem mem_listed (highest : s.maxOrder.count? = some top) {o : Nat} {c : BufferClass} :
    (o, c) ∈ listed s pool ↔ o ≤ top ∧ pool.classAt? o = some c ∧ c.bufCount ≠ 0 := by
  rw [listed, orders, highest, List.mem_filterMap]
  simp only [List.mem_range, Nat.lt_succ_iff, listed?_eq_some]
  constructor
  · rintro ⟨_, hle, rfl, hclass⟩
    exact ⟨hle, hclass⟩
  · rintro ⟨hle, hclass⟩
    exact ⟨o, hle, rfl, hclass⟩

theorem ascending_listed (highest : s.maxOrder.count? = some top) :
    (listed s pool).Pairwise fun r r' => r.1 < r'.1 := by
  rw [listed, orders, highest]
  refine List.Pairwise.filterMap (listed? pool) ?_ List.pairwise_lt_range
  intro o o' hlt r hr r' hr'
  rw [(listed?_eq_some.mp hr).1, (listed?_eq_some.mp hr').1]
  exact hlt

end Listed

/-! ### List indices -/

/-- The list indices of a group of buffers as they are printed in one line. -/
def groupLine (buffers : List Number) : Text := buffers.flatMap fun list => space :: written list

theorem groupLine_cons (list : Number) (rest : List Number) :
    groupLine (list :: rest) = space :: written list ++ groupLine rest := List.flatMap_cons

/-- What is printed before the buffer at a position. -/
def breaks (w index : Nat) : List Text := if index ≠ 0 ∧ w ∣ index then [[Text.newline]] else []

/-- The texts printed for the buffers from a position on. -/
def indexTexts (w : Nat) : Nat → List Number → List Text
  | _, [] => []
  | i, list :: rest => breaks w i ++ (space :: written list) :: indexTexts w (i + 1) rest

section Indices

variable {s : Settings} {w : Nat}

theorem breaksBefore_iff (wrap : s.bufferListWrap = .ofCount w) (pos : 0 < w) {i : Nat}
    (exact : i ≤ exactBound) : breaksBefore s i = true ↔ i ≠ 0 ∧ w ∣ i := by
  have hw : (w : Rat) ≠ 0 := by exact_mod_cast pos.ne'
  have hmultiple : (ofCount i).isMultipleOf (ofCount w) = true ↔ w ∣ i := by
    simp [ofCount, isMultipleOf, pos.ne', Rat.den_div_natCast_eq_one_iff]
  rw [breaksBefore, wrap, ofNat_eq_ofCount exact, Bool.and_eq_true, hmultiple, bne_iff_ne]

theorem decimal_zero (x : Number) : decimal x 0 = written x := by
  have hwidth : unitsOf 0 = 0 := by decide +kernel
  rw [decimal, hwidth]
  simp [Text.padStart, written]

theorem indicesFrom_eq (wrap : s.bufferListWrap = .ofCount w) (pos : 0 < w) (buffers : List Number)
    {i : Nat} (exact : i + buffers.length ≤ exactBound) :
    indicesFrom s i buffers = (indexTexts w i buffers).map Except.ok := by
  induction buffers generalizing i with
  | nil => rfl
  | cons list rest ih =>
    rw [List.length_cons] at exact
    have hentry : Piece.joined [" ", decimal list 0] = .ok (space :: written list) := by
      rw [decimal_zero]
      change Piece.joined ([label " ", written list].map Except.ok) = _
      rw [Piece.joined_ok, List.flatten_cons, List.flatten_cons, List.flatten_nil, List.append_nil]
      rfl
    have hbreak := breaksBefore_iff (s := s) wrap pos (i := i) (by omega)
    rw [indicesFrom, indexTexts, breaks, List.map_append, List.map_cons, hentry,
      ih (i := i + 1) (by omega)]
    by_cases h : i ≠ 0 ∧ w ∣ i
    · rw [if_pos (hbreak.mpr h), if_pos h]
      rfl
    · rw [if_neg (mt hbreak.mp h), if_neg h]
      rfl

/-- Buffers at positions without breaks are printed side by side. -/
theorem flatten_indexTexts_append (buffers rest : List Number) {i : Nat}
    (unbroken : ∀ j < buffers.length, breaks w (i + j) = []) :
    (indexTexts w i (buffers ++ rest)).flatten =
      groupLine buffers ++ (indexTexts w (i + buffers.length) rest).flatten := by
  induction buffers generalizing i with
  | nil => rfl
  | cons list others ih =>
    have hfirst : breaks w i = [] := unbroken 0 (Nat.zero_lt_succ _)
    have hothers : ∀ j < others.length, breaks w (i + 1 + j) = [] := by
      intro j hj
      rw [Nat.add_assoc, Nat.add_comm 1 j]
      exact unbroken (j + 1) (Nat.succ_lt_succ hj)
    rw [List.cons_append, indexTexts, hfirst, List.nil_append, List.flatten_cons, ih hothers,
      groupLine_cons, List.append_assoc, List.length_cons, Nat.add_assoc, Nat.add_comm 1]

theorem breaks_within {k j : Nat} (later : 0 < j) (within : j < w) : breaks w (w * k + j) = [] := by
  refine if_neg fun h => ?_
  have hdvd : w ∣ j := (Nat.dvd_add_right (Nat.dvd_mul_right w k)).mp h.2
  exact absurd (Nat.le_of_dvd later hdvd) (by omega)

theorem breaks_multiple (pos : 0 < w) (k : Nat) : breaks w (w * (k + 1)) = [[Text.newline]] :=
  if_pos ⟨Nat.mul_ne_zero pos.ne' k.succ_ne_zero, Nat.dvd_mul_right w _⟩

/-- The texts of buffers from the start of a line on are those of its `w` buffers and those of the
rest. -/
theorem flatten_indexTexts_cons (list : Number) (rest : List Number) (k : Nat) :
    (indexTexts w (w * k) (list :: rest)).flatten = (breaks w (w * k)).flatten ++
      (groupLine (list :: rest.take (w - 1)) ++
        (indexTexts w (w * k + (1 + (rest.take (w - 1)).length)) (rest.drop (w - 1))).flatten) := by
  have hunbroken : ∀ j < (rest.take (w - 1)).length, breaks w (w * k + 1 + j) = [] := by
    intro j hj
    have hwithin : j < w - 1 := Nat.lt_of_lt_of_le hj (List.length_take_le _ _)
    rw [Nat.add_assoc]
    exact breaks_within (by omega) (by omega)
  have hrest := flatten_indexTexts_append _ (rest.drop (w - 1)) hunbroken
  rw [List.take_append_drop] at hrest
  rw [indexTexts, List.flatten_append, List.flatten_cons, hrest, Nat.add_assoc, groupLine_cons,
    List.append_assoc]

/-- Buffers from the start of a line on are printed in lines of `w` buffers. -/
theorem exists_wrapped (pos : 0 < w) {buffers : List Number} (nonempty : buffers ≠ []) (k : Nat) :
    ∃ groups, groups ≠ [] ∧ Wrapped w buffers groups ∧
      (indexTexts w (w * k) buffers).flatten ++ [Text.newline] =
        (breaks w (w * k)).flatten ++ Text.ended (groups.map groupLine) := by
  obtain ⟨n, hn⟩ : ∃ n, buffers.length = n := ⟨_, rfl⟩
  induction n using Nat.strong_induction_on generalizing buffers k with
  | _ n ih =>
    obtain ⟨list, rest, rfl⟩ := List.exists_cons_of_ne_nil nonempty
    rw [List.length_cons] at hn
    by_cases hmore : rest.drop (w - 1) = []
    · -- the last line
      have hshort : rest.length ≤ w - 1 := List.drop_eq_nil_iff.mp hmore
      refine ⟨[list :: rest], List.cons_ne_nil _ _,
        .single (List.cons_ne_nil _ _) (by rw [List.length_cons]; omega), ?_⟩
      rw [flatten_indexTexts_cons, hmore, List.take_of_length_le hshort, indexTexts,
        List.flatten_nil, List.append_nil, List.append_assoc, List.map_singleton, Text.ended_cons]
      rfl
    · have hlong : w - 1 < rest.length := Nat.lt_of_not_le (mt List.drop_eq_nil_of_le hmore)
      have htake : (rest.take (w - 1)).length = w - 1 := List.length_take_of_le hlong.le
      obtain ⟨groups, hgroups, hwrapped, htexts⟩ :=
        ih (rest.drop (w - 1)).length (by rw [List.length_drop]; omega) hmore (k + 1) rfl
      have hfull : (list :: rest.take (w - 1)).length = w := by
        rw [List.length_cons, htake]
        omega
      have hline := hwrapped.cons hgroups hfull
      rw [List.cons_append, List.take_append_drop] at hline
      refine ⟨_, List.cons_ne_nil _ _, hline, ?_⟩
      have hnext : w * k + (1 + (w - 1)) = w * (k + 1) := by
        rw [Nat.mul_succ]
        omega
      rw [flatten_indexTexts_cons, htake, hnext, List.append_assoc, List.append_assoc, htexts,
        breaks_multiple pos, List.map_cons, Text.ended_cons]
      rfl

theorem plain_indexTexts (w i : Nat) (buffers : List Number) :
    ∀ t ∈ indexTexts w i buffers, t.Plain := by
  induction buffers generalizing i with
  | nil => exact nofun
  | cons list rest ih =>
    have hentry : Text.Plain (space :: written list) :=
      List.forall_mem_cons.mpr ⟨by decide, (graphic_written list).printable.plain⟩
    rw [indexTexts]
    intro t ht
    rcases List.mem_append.mp ht with hbreak | ht
    · rw [breaks] at hbreak
      split_ifs at hbreak
      · rw [List.mem_singleton.mp hbreak]
        decide
      · cases hbreak
    · rcases List.mem_cons.mp ht with rfl | hrest
      · exact hentry
      · exact ih (i + 1) t hrest

end Indices

/-! ### The whole report -/

/-- The lines above the rows. -/
def headerLine : Text := label " o     size count  free  segs pages    kB"

/-- The lines below the rows: one for each group, and an empty one if there is none. -/
def indexLines (groups : List (List Number)) : List Text :=
  if groups = [] then [[]] else groups.map groupLine

/-- All lines of the report. -/
def reportLines (s : Settings) (rows : List (Nat × BufferClass)) (groups : List (List Number)) :
    List Text :=
  headerLine :: [] :: (rows.map fun r => line s r.1 r.2) ++ [] :: indexLines groups

/-- The columns on pages and kilobytes show the whole parts of what these are without rounding: the
segment count is a value that is not negative, the power is in range, and neither the segments nor
the pages nor the kilobytes reach 2^53. -/
def ExactPages (s : Settings) (k : Nat) (c : BufferClass) : Prop :=
  ∀ (q : Rat) (z : Int), c.segCount = .finite q → IsMagnitude q → c.pageOrder = .finite z →
    z < 1024 → q < exactBound → q * 2 ^ z < exactBound → q * 2 ^ z * 2 ^ k / 1024 < exactBound →
    written (pages c) = label (toString ⌊q * 2 ^ z⌋₊) ∧
    written (kilobytes s c) = label (toString ⌊q * 2 ^ z * 2 ^ k / 1024⌋₊)

/-- The rows and the groups that the report on a pool has: a row for each order up to the highest
that has buffers, in ascending order, and groups of all buffers in order. -/
structure Listing (s : Settings) (top w k : Nat) (pool : DmaPool)
    (rows : List (Nat × BufferClass)) (groups : List (List Number)) : Prop where
  ascending : rows.Pairwise fun r r' => r.1 < r'.1
  mem_iff : ∀ o c, (o, c) ∈ rows ↔ o ≤ top ∧ pool.classAt? o = some c ∧ c.bufCount ≠ 0
  words : ∀ o c, (o, c) ∈ rows → (line s o c).words =
    [label (toString o), written c.bufSize, written c.bufCount, written c.freeCount.number,
      written c.segCount, written (pages c), written (kilobytes s c)]
  pages : ∀ o c, (o, c) ∈ rows → ExactPages s k c
  wrapped : Wrapped w pool.buffers groups

section Whole

variable {s : Settings} {pool : DmaPool} {top w k : Nat}

/-- A figure is written as its whole part. -/
theorem written_finite {x : Rat} (nonneg : 0 ≤ x) (small : ⌊x⌋₊ ≤ exactBound) :
    written (.finite x) = label (toString ⌊x⌋₊) := by
  have hcount : (ofCount ⌊x⌋₊).trunc = .ofCount ⌊x⌋₊ := by
    rw [ofCount, trunc_finite (Nat.cast_nonneg _), Nat.floor_natCast]
    rfl
  have hsame : written (.finite x) = written (.ofCount ⌊x⌋₊) := by
    rw [written, written, trunc_finite nonneg, hcount]
  rw [hsame, written_ofCount small]
  rfl

theorem exactPages (pageSize : s.pageSize = .ofCount (2 ^ k)) (wide : k < 1024) (c : BufferClass) :
    ExactPages s k c := by
  intro q z segments magnitude order high few below kilobytesBelow
  obtain ⟨p, hp, hstands⟩ := pages_standsFor segments magnitude order high few below
  constructor
  · have hfloor := hstands.floor_eq (by decide)
    rw [hp, written_finite hstands.nonneg.1 (hfloor ▸ Nat.floor_le_of_le below.le), hfloor]
  · rw [kilobytes_eq pageSize wide hp hstands kilobytesBelow,
      written_ofCount (Nat.floor_le_of_le kilobytesBelow.le)]
    rfl

/-- The texts that the report prints for a pool. -/
def texts (s : Settings) (w : Nat) (pool : DmaPool) : List Text :=
  Text.ended [headerLine, []] ::
    ((listed s pool).map fun r => line s r.1 r.2 ++ [Text.newline]) ++
      ([Text.newline] :: indexTexts w 0 pool.buffers ++ [[Text.newline]])

theorem pieces_eq (wrap : s.bufferListWrap = .ofCount w) (pos : 0 < w)
    (exact : pool.buffers.length ≤ exactBound) :
    pieces s pool = (texts s w pool).map Except.ok := by
  have hheader : header = .ok (Text.ended [headerLine, []]) :=
    congrArg Except.ok (by decide +kernel)
  have hrows : (listed s pool).map (fun r => row s r.1 r.2) =
      ((listed s pool).map fun r => line s r.1 r.2 ++ [Text.newline]).map Except.ok := by
    rw [List.map_map]
    exact List.map_congr_left fun r _ => row_eq s r.1 r.2
  have hindices := indicesFrom_eq wrap pos pool.buffers (i := 0) (by omega)
  have hlines : (orders s).filterMap (listed? pool) = listed s pool := rfl
  rw [pieces, hlines, hrows, hheader, hindices, texts]
  simp only [List.map_append, List.map_cons, List.map_nil, List.append_assoc, List.cons_append]
  rfl

theorem lists : report.Lists fun s d =>
    match d.dma with
    | none => []
    | some pool => pieces s pool := lists_ofPieces _ _ _

theorem plain_texts (s : Settings) (w : Nat) (pool : DmaPool) : ∀ t ∈ texts s w pool, t.Plain := by
  have hbreak : Text.Plain [Text.newline] := by decide
  have hindices := plain_indexTexts w 0 pool.buffers
  have hheader : Text.Plain (Text.ended [headerLine, []]) := by decide +kernel
  simp only [texts, List.cons_append, List.mem_cons, List.mem_append, List.mem_map,
    List.not_mem_nil, or_false]
  rintro t (rfl | ⟨r, -, rfl⟩ | rfl | ht | rfl)
  · exact hheader
  · exact (printable_line s r.1 r.2).plain.append hbreak
  · exact hbreak
  · exact hindices t ht
  · exact hbreak

theorem flatten_texts (pos : 0 < w) (s : Settings) (pool : DmaPool) :
    ∃ groups, Wrapped w pool.buffers groups ∧
      (texts s w pool).flatten = Text.ended (reportLines s (listed s pool) groups) := by
  have hindices : ∃ groups, Wrapped w pool.buffers groups ∧
      (indexTexts w 0 pool.buffers).flatten ++ [Text.newline] = Text.ended (indexLines groups) := by
    by_cases hnone : pool.buffers = []
    · exact ⟨[], hnone ▸ .nil w, by rw [hnone]; rfl⟩
    · obtain ⟨groups, hgroups, hwrapped, htexts⟩ := exists_wrapped pos hnone 0
      refine ⟨groups, hwrapped, ?_⟩
      have hstart : breaks w 0 = [] := if_neg fun h => h.1 rfl
      rw [Nat.mul_zero, hstart] at htexts
      rw [indexLines, if_neg hgroups]
      exact htexts
  obtain ⟨groups, hwrapped, hlines⟩ := hindices
  refine ⟨groups, hwrapped, ?_⟩
  have hrows := Text.flatten_ended (listed s pool) fun r => line s r.1 r.2
  have hall : reportLines s (listed s pool) groups =
      [headerLine, []] ++ ((listed s pool).map fun r => line s r.1 r.2) ++
        ([] :: indexLines groups) :=
    rfl
  rw [hall, Text.ended_append, Text.ended_append, Text.ended_cons [], ← hlines, ← hrows]
  simp only [texts, List.flatten_append, List.flatten_cons, List.flatten_nil, List.append_assoc,
    List.append_nil, List.cons_append, List.nil_append]

/-- The body of the report on a pool is all texts that it prints. -/
theorem body_texts (wrap : s.bufferListWrap = .ofCount w) (pos : 0 < w) {d : Device}
    (present : d.dma = some pool) (exact : pool.buffers.length ≤ exactBound) :
    report.Body s d (Text.encode (texts s w pool).flatten) :=
  body_of_lists lists rfl rfl (by rw [present]; exact pieces_eq wrap pos exact)
    (plain_texts s w pool)

/-- The report on a pool has a row for each order with buffers, and the list indices of all buffers
in lines of one length. Without a pool it is empty. -/
theorem body_of_pool (highest : s.maxOrder.count? = some top) (wrap : s.bufferListWrap = .ofCount w)
    (pos : 0 < w) (pageSize : s.pageSize = .ofCount (2 ^ k)) (wide : k < 1024) (d : Device) :
    (d.dma = none → report.Body s d []) ∧
    ∀ pool, d.dma = some pool → pool.buffers.length ≤ exactBound →
      ∃ rows groups, Listing s top w k pool rows groups ∧
        report.Body s d (Text.ended (reportLines s rows groups)).encode := by
  refine ⟨fun absent => ?_, fun pool present exact => ?_⟩
  · have hnothing : (match d.dma with
        | none => []
        | some pool => pieces s pool) = ([] : List Text).map Except.ok := by
      rw [absent]
      rfl
    exact body_of_lists lists rfl rfl hnothing nofun
  · obtain ⟨groups, hwrapped, htexts⟩ := flatten_texts pos s pool
    refine ⟨listed s pool, groups, ⟨ascending_listed highest, fun o c => mem_listed highest, ?_,
      fun o c _ => exactPages pageSize wide c, hwrapped⟩,
      htexts ▸ body_texts wrap pos present exact⟩
    intro o c hmem
    obtain ⟨htop, -⟩ := (mem_listed highest).mp hmem
    have hbound := (eq_ofCount_of_count? highest).2
    rw [words_line, ofNat_eq_ofCount (by omega), written_ofCount (by omega)]
    rfl

end Whole

/-- Two segments of sixteen pages each. -/
def paged : BufferClass := ⟨.ofCount 65536, .ofCount 2, ⟨2⟩, .ofCount 2, .finite 4⟩

/-- A pool with buffers of one order, and another order that has lost its buffers. -/
def sparse : DmaPool where
  classes := [(.ofCount 0, { paged with bufCount := .ofCount 0 }), (.ofCount 4, paged)]
  buffers := [.ofCount 0, .ofCount 1, .ofCount 7]

def narrow : Settings := { Settings.defaults with bufferListWrap := .ofCount 2 }

/-- Its report has a row for the order with buffers, with 32 pages and 128 kilobytes. -/
theorem body_of_sparse_pool :
    narrow.maxOrder.count? = some 22 ∧ narrow.bufferListWrap = .ofCount 2 ∧ 0 < 2 ∧
    narrow.pageSize = .ofCount (2 ^ 12) ∧ 12 < 1024 ∧
    ∃ rows groups, Listing narrow 22 2 12 sparse rows groups ∧ (4, paged) ∈ rows ∧
      written (pages paged) = label "32" ∧ written (kilobytes narrow paged) = label "128" ∧
      report.Body narrow { Sample.bare with dma := some sparse }
        (Text.ended (reportLines narrow rows groups)).encode := by
  have highest : narrow.maxOrder.count? = some 22 := count?_ofCount (by decide)
  have pageSize : narrow.pageSize = .ofCount (2 ^ 12) := rfl
  obtain ⟨rows, groups, hlisting, hbody⟩ :=
    (body_of_pool highest rfl (by decide) pageSize (by decide)
      { Sample.bare with dma := some sparse }).2 sparse rfl (by decide)
  have hmem : (4, paged) ∈ rows :=
    (hlisting.mem_iff 4 paged).mpr ⟨by decide, by decide +kernel, by decide +kernel⟩
  have htwo : IsMagnitude 2 := ⟨2, 0, by decide, by decide, by norm_num⟩
  obtain ⟨hpages, hkilobytes⟩ := hlisting.pages 4 paged hmem 2 4 rfl htwo rfl (by decide)
    (by norm_num [exactBound]) (by norm_num [exactBound]) (by norm_num [exactBound])
  have hfloor : ⌊(2 : Rat) * 2 ^ (4 : Int)⌋₊ = 32 := by norm_num
  have hkilofloor : ⌊(2 : Rat) * 2 ^ (4 : Int) * 2 ^ 12 / 1024⌋₊ = 128 := by norm_num
  rw [hfloor] at hpages
  rw [hkilofloor] at hkilobytes
  exact ⟨highest, rfl, by decide, pageSize, by decide, rows, groups, hlisting, hmem, hpages,
    hkilobytes, hbody⟩

/-- No segments of an order whose power is not a value. -/
def steep : BufferClass := ⟨.ofCount 1, .ofCount 1, ⟨0⟩, .ofCount 0, .finite 1024⟩

def steepReport : Text :=
  Text.ended [headerLine, [], label " 0        1     1     0     0   NaN   NaN", [], []]

/-- Pages and kilobytes below 2^53 are not always shown: no segments times a power that is infinite
are no number. With an order that is no integer pages are above what they should be, and with a
segment count below zero kilobytes are. -/
theorem pages_shown_wrong :
    (steep.segCount = .finite 0 ∧ steep.pageOrder = .finite ((1024 : Int) : Rat) ∧
      (0 : Rat) * 2 ^ (1024 : Int) = 0 ∧
      report.Body Settings.defaults { Sample.bare with dma := some ⟨[(.ofCount 0, steep)], []⟩ }
        steepReport.encode) ∧
    (pages { steep with segCount := .ofCount (2 ^ 52), pageOrder := .finite (1 / 2) } =
        .ofCount 6369051672525773 ∧
      (2 ^ 52) ^ 2 * 2 < 6369051672525773 ^ 2) ∧
    (kilobytes Settings.defaults
        { steep with segCount := .finite (-2 ^ (-1074 : Int)), pageOrder := .finite (-1) } =
          .finite 0 ∧
      ⌊-(2 : Rat) ^ (-1074 : Int) * 2 ^ (-1 : Int) * 2 ^ 12 / 1024⌋ = -1) := by
  refine ⟨⟨rfl, rfl, zero_mul _, ?_⟩, ⟨by decide +kernel, by decide⟩, by decide +kernel, ?_⟩
  · have htexts :
        (texts Settings.defaults 32 ⟨[(.ofCount 0, steep)], []⟩).flatten = steepReport := by
      decide +kernel
    rw [← htexts]
    exact body_texts rfl (by decide) rfl (by decide)
  · obtain ⟨x, hx⟩ : ∃ x, (2 : Rat) ^ (-1073 : Int) = x := ⟨_, rfl⟩
    have hpos : 0 < x := hx ▸ two_zpow_pos _
    have hle : x ≤ 1 := hx ▸ zpow_le_one_of_nonpos₀ (by norm_num) (by decide)
    have hpower : (2 : Rat) ^ (-1074 : Int) * 2 ^ (1 : Int) = x := (two_zpow_add _ _).symm.trans hx
    have hscaled : -(2 : Rat) ^ (-1074 : Int) * 2 ^ (-1 : Int) * 2 ^ 12 / 1024 = -x := by
      rw [← hpower, zpow_neg_one, zpow_one]
      ring
    rw [hscaled, Int.floor_eq_iff, Int.cast_neg, Int.cast_one]
    exact ⟨by linarith, by linarith⟩

end Report.BufferPool

end DeviceReports
