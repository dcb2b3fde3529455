import DeviceReports.Device.Sample
import DeviceReports.Proofs.AcceptedSettings
import DeviceReports.Proofs.Formatting
import DeviceReports.Proofs.PlainText

/-!
# The rows of the named object report

The report stops at the first row that takes it past the size limit, and shows that row whole.
What makes this sure is the margin that accepted settings keep below the capacity: it is more
than any row can take. A row's two plain figures may be as long as the text of a number is,
which is taken to be at most 24 characters where the number is an integer; its two counters are
32-bit figures.
-/

set_option autoImplicit false

namespace DeviceReports

open Text (Bytes)

namespace Counter

/-- A counter is written with at most ten digits and a sign. -/
theorem length_text_le (c : Counter) : c.number.trunc.text.length ≤ 11 := by
  have hlow : -2147483648 ≤ c.value := c.word.le_toInt
  have hhigh : c.value < 2147483648 := c.word.toInt_lt
  have hexact : (c.value : Rat).den = 1 ∧ (c.value : Rat).num.natAbs ≤ Number.exactBound := by
    refine ⟨Rat.den_intCast _, ?_⟩
    rw [Rat.num_intCast]
    unfold Number.exactBound
    omega
  have htrunc : c.number.trunc = .finite (c.value : Rat) := by
    rw [number, Number.ofInt, Number.ofRat, if_pos hexact, Number.trunc]
    simp
  have hdigits : (Nat.toDigits 10 c.value.natAbs).length ≤ 10 :=
    (Nat.length_toDigits_le_iff (by decide) (by decide)).mpr (by omega)
  rw [htrunc, Number.text, String.length_ofList, Decimal.text, if_pos hexact, List.length_append,
    Rat.num_intCast]
  split
  · simpa using Nat.add_le_add_left hdigits 1
  · simpa using Nat.le_succ_of_le hdigits

end Counter

namespace Report.NamedObjects

open Column

/-- A figure whose integer part, where it has one, is written with at most 24 characters. -/
def ShortFigure (x : Number) : Prop := ∀ q, x.trunc = .finite q → (Decimal.text q).length ≤ 24

theorem ShortFigure.length_le {x : Number} (short : ShortFigure x) : x.trunc.text.length ≤ 24 := by
  rcases hx : x.trunc with _ | negative | q
  · decide
  · cases negative <;> decide
  · rw [Number.text, String.length_ofList]
    exact short q hx

/-- The assumption holds of every figure that counts something. -/
theorem shortFigure_ofCount {n : Nat} (h : n ≤ Number.exactBound) : ShortFigure (.ofCount n) := by
  intro q hq
  have hvalue : q = (n : Rat) := by
    rw [Number.ofCount, Number.trunc] at hq
    simpa using (Number.finite.inj hq).symm
  have hexact : (n : Rat).den = 1 ∧ (n : Rat).num.natAbs ≤ Number.exactBound := by simpa using h
  have hsign : ¬ (n : Rat) < 0 := not_lt.mpr (Nat.cast_nonneg n)
  rw [hvalue, Decimal.text, if_pos hexact, if_neg hsign, List.nil_append, Rat.num_natCast,
    Nat.length_toDigits_le_iff (by decide) (by decide)]
  exact lt_of_le_of_lt h (by decide)

/-- The bytes of rows. -/
def rows (objects : List NamedObject) : Bytes := objects.flatMap fun o => (rowText o).encode

theorem rows_cons (o : NamedObject) (rest : List NamedObject) :
    rows (o :: rest) = (rowText o).encode ++ rows rest := List.flatMap_cons

/-- The bytes of the header and of rows behind it. -/
def table (objects : List NamedObject) : Bytes := headerText.encode ++ rows objects

/-- A row without its end. -/
def columns (o : NamedObject) : Text :=
  decimal o.name 6 ++ (decimal o.size 9 ++ (decimal o.handleCount.number 8 ++
    decimal o.refCount.number 9))

theorem printable_columns (o : NamedObject) : (columns o).Printable :=
  (printable_decimal _ _).append ((printable_decimal _ _).append
    ((printable_decimal _ _).append (printable_decimal _ _)))

/-- A row is one line. -/
theorem encode_rowText (o : NamedObject) : (rowText o).encode = (columns o).encode ++ [10] := by
  have hend : (Text.ofString "\n").Plain := by decide
  have htext : rowText o = columns o ++ Text.ofString "\n" := by simp [rowText, columns]
  rw [htext, Text.encode_append (printable_columns o).plain hend]
  rfl

/-- A row takes at most 71 bytes. -/
theorem length_encode_rowText_le {o : NamedObject} (name : ShortFigure o.name)
    (size : ShortFigure o.size) : (rowText o).encode.length ≤ 71 := by
  have hname := name.length_le
  have hsize := size.length_le
  have hhandles := o.handleCount.length_text_le
  have hrefs := o.refCount.length_text_le
  have hwidths : unitsOf 6 = 6 ∧ unitsOf 9 = 9 ∧ unitsOf 8 = 8 := by decide
  rw [encode_rowText, List.length_append, Text.length_encode (printable_columns o).plain]
  simp only [columns, List.length_append, length_decimal, hwidths, List.length_singleton]
  omega

theorem length_rows_le {objects : List NamedObject}
    (short : ∀ o ∈ objects, ShortFigure o.name ∧ ShortFigure o.size) :
    (rows objects).length ≤ 71 * objects.length := by
  induction objects with
  | nil => exact Nat.le_refl 0
  | cons o rest ih =>
    have hrow := length_encode_rowText_le (short o (by simp)).1 (short o (by simp)).2
    have hrest := ih fun x hx => short x (by simp [hx])
    rw [rows_cons, List.length_append, List.length_cons]
    omega

theorem table_take_prefix (objects : List NamedObject) (k : Nat) :
    table (objects.take k) <+: table objects := by
  refine ⟨rows (objects.drop k), ?_⟩
  rw [table, table, rows, rows, List.append_assoc, ← List.flatMap_append, List.take_append_drop]
  rfl

/-! ### Where the rows stop -/

/-- Of some rows as many are shown as it takes to pass the limit, or all of them. -/
structure StopsAt (limit count : Nat) (size : Nat → Nat) (m : Nat) : Prop where
  within : m ≤ count
  before : ∀ k, k < m → size k ≤ limit
  stops : m = count ∨ limit < size m

/-- Under a larger limit no fewer rows are shown. -/
theorem StopsAt.mono {limit limit' count m m' : Nat} {size : Nat → Nat}
    (h : StopsAt limit count size m) (h' : StopsAt limit' count size m') (le : limit ≤ limit') :
    m ≤ m' := by
  by_contra hmore
  have hbefore := h.before m' (by omega)
  have hwithin := h.within
  have hstops := h'.stops
  omega

theorem rowsInto_overflowed {out : ReportBuffer} (past : out.overflowed = true)
    (objects : List NamedObject) : rowsInto out objects = [] := by
  induction objects with
  | nil => rfl
  | cons o rest ih => rw [rowsInto, if_pos past, ih]

/-- The walk over the objects: as long as every row that may be reached has room, the rows shown
are those up to the one that passes the limit. -/
theorem rowsInto_holding {limit capacity : Nat} {objects : List NamedObject}
    (short : ∀ o ∈ objects, (rowText o).encode.length ≤ 71) {all : Bytes}
    (fits : all.length ≤ capacity)
    (room : limit + 71 ≤ capacity ∨ all.length + (rows objects).length ≤ capacity) :
    ∃ m, StopsAt limit objects.length (fun k => all.length + (rows (objects.take k)).length) m ∧
      all.length + (rows (objects.take m)).length ≤ capacity ∧
      rowsInto (.holding (.ofCount limit) capacity all) objects =
        (objects.take m).map rowText := by
  induction objects generalizing all with
  | nil => exact ⟨0, ⟨Nat.le_refl 0, nofun, Or.inl rfl⟩, by simpa [rows] using fits, rfl⟩
  | cons o rest ih =>
    have hover : (ReportBuffer.holding (.ofCount limit) capacity all).overflowed = true ↔
        limit < all.length := by
      rw [ReportBuffer.overflowed_holding, Number.ofCount_lt_ofCount]
      omega
    by_cases hpast : limit < all.length
    · refine ⟨0, ⟨Nat.zero_le _, nofun, Or.inr (by omega)⟩, by simpa [rows] using fits, ?_⟩
      rw [rowsInto_overflowed (hover.mpr hpast)]
      rfl
    · have hrow : (rowText o).encode.length ≤ 71 := short o (by simp)
      have hrows (k : Nat) : all.length + (rows ((o :: rest).take (k + 1))).length =
          (all ++ (rowText o).encode).length + (rows (rest.take k)).length := by
        rw [List.take_succ_cons, rows_cons, List.length_append, List.length_append, Nat.add_assoc]
      have htotal : all.length + (rows (o :: rest)).length =
          (all ++ (rowText o).encode).length + (rows rest).length := by
        rw [rows_cons, List.length_append, List.length_append, Nat.add_assoc]
      have hfits : (all ++ (rowText o).encode).length ≤ capacity := by
        rw [List.length_append]
        rw [htotal, List.length_append] at room
        omega
      obtain ⟨m, hstops, hheld, htexts⟩ :=
        ih (fun x hx => short x (by simp [hx])) hfits (by rwa [htotal] at room)
      refine ⟨m + 1, ⟨Nat.succ_le_succ hstops.within, ?_, ?_⟩, ?_, ?_⟩
      · intro k hk
        cases k with
        | zero => simpa [rows] using Nat.le_of_not_lt hpast
        | succ k =>
          rw [hrows]
          exact hstops.before k (by omega)
      · rw [hrows, List.length_cons]
        exact hstops.stops.imp (congrArg (· + 1)) id
      · rw [hrows]
        exact hheld
      · rw [rowsInto, if_neg (mt hover.mp hpast), ReportBuffer.printed_holding, htexts]
        rfl

/-! ### The body -/

/-- What the report may come to hold can be stored at all: a buffer has at most `mostBytes`
positions, whatever its capacity. -/
def Storable (s : Settings) (objects : List NamedObject) : Prop :=
  s.sizeLimit ≤ .ofCount (ReportBuffer.mostBytes - Settings.margin) ∨
    (table objects).length ≤ ReportBuffer.mostBytes

/-- Whatever the size limit is, as many rows as an array can have entries, fewer than `2 ^ 32`, can
be stored. -/
theorem storable_of_length (s : Settings) {objects : List NamedObject}
    (short : ∀ o ∈ objects, ShortFigure o.name ∧ ShortFigure o.size)
    (few : objects.length < 2 ^ 32) : Storable s objects := by
  have hrows := length_rows_le short
  have hheader : headerText.encode.length ≤ 71 := by decide
  refine Or.inr ?_
  rw [table, List.length_append]
  unfold ReportBuffer.mostBytes Number.exactBound
  omega

/-- A body under whole limits that keep the margin: the header and the rows up to the one that
passes the limit, with nothing dropped. -/
structure Body (limit : Nat) (objects : List NamedObject) (out : ReportBuffer) (m : Nat) :
    Prop where
  content : out.content.toList = table (objects.take m)
  whole : out.truncated = false
  stops : StopsAt limit objects.length (fun k => (table (objects.take k)).length) m

theorem outcome_rendering (s : Settings) {d : Device} (free : d.lockWord = Lock.free)
    {out : ReportBuffer} (sound : out.Sound) :
    (report.rendering s).outcome (d, out) =
      (.ok (), (d, out.printAll (headerText :: rowsInto (out.printed headerText) d.objects))) :=
  rendering_free rfl s free nofun (outcome_generate s (d.putLockWord Lock.held) sound)

/-- What the report prints, once it is known which rows it prints. -/
theorem printAll_rows {limit : Number} {capacity m : Nat} {objects : List NamedObject}
    (texts : rowsInto (.holding limit capacity headerText.encode) objects =
      (objects.take m).map rowText) :
    (ReportBuffer.new limit capacity).printAll
        (headerText :: rowsInto ((ReportBuffer.new limit capacity).printed headerText) objects) =
      .holding limit capacity (table (objects.take m)) := by
  have hfirst : (ReportBuffer.new limit capacity).printed headerText =
      .holding limit capacity headerText.encode := by
    rw [ReportBuffer.new_eq_holding, ReportBuffer.printed_holding, List.nil_append]
  rw [hfirst, texts, ReportBuffer.printAll_new, table, rows, List.flatMap_cons, List.flatMap_map]

theorem body_of_room {s : Settings} {limit capacity : Nat}
    (bounds : s.bounds = Bounds.ofCounts limit capacity)
    (margin : limit + Settings.margin ≤ capacity)
    {d : Device} (free : d.lockWord = Lock.free)
    (short : ∀ o ∈ d.objects, ShortFigure o.name ∧ ShortFigure o.size)
    (storable : Storable s d.objects) :
    ∃ out m, (Rendering.fresh s.bounds (report.rendering s)).outcome d = (.ok out, d) ∧
      Body limit d.objects out m := by
  have hlimit : s.sizeLimit = .ofCount limit := congrArg Bounds.sizeLimit bounds
  have hheader : headerText.encode.length ≤ 71 := by decide
  have htable : (table d.objects).length = headerText.encode.length + (rows d.objects).length :=
    List.length_append
  have hmargin : Settings.margin = 80 := rfl
  have hmost : Settings.margin ≤ ReportBuffer.mostBytes := by decide
  have hstorable : limit ≤ ReportBuffer.mostBytes - Settings.margin ∨
      (table d.objects).length ≤ ReportBuffer.mostBytes :=
    storable.imp_left fun h => by rwa [hlimit, Number.ofCount_le_ofCount] at h
  have hfits : headerText.encode.length ≤ min capacity ReportBuffer.mostBytes := by omega
  have hroom : limit + 71 ≤ min capacity ReportBuffer.mostBytes ∨
      headerText.encode.length + (rows d.objects).length ≤ min capacity ReportBuffer.mostBytes := by
    omega
  obtain ⟨m, hstops, hheld, htexts⟩ := rowsInto_holding
    (fun o ho => length_encode_rowText_le (short o ho).1 (short o ho).2) hfits hroom
  have hlength (k : Nat) : (table (d.objects.take k)).length =
      headerText.encode.length + (rows (d.objects.take k)).length := List.length_append
  have hprinted := printAll_rows htexts
  refine ⟨.holding (.ofCount limit) (min capacity ReportBuffer.mostBytes)
    (table (d.objects.take m)), m, ?_, ⟨?_, ?_, ?_⟩⟩
  · rw [bounds, Reading.fresh_ofCounts, Rendering.into,
      outcome_rendering s free (Bounds.sound_buffer limit capacity), Bounds.buffer, hprinted]
  · rw [ReportBuffer.content_holding, List.take_of_length_le (by rw [hlength]; exact hheld)]
  · exact decide_eq_false (by rw [hlength]; omega)
  · simpa only [hlength] using hstops

/-- On a device whose lock is free, the body of the report is the header and the rows of the
registry in order up to the one that passes the size limit, each of them a whole line, and
nothing is dropped. Settings with a smaller size limit give a beginning of it. -/
theorem rows_stop_past_limit (machine : String) (config : Value) (s : Settings)
    (accepted : Settings.resolve machine config = .ok s) (d : Device)
    (free : d.lockWord = Lock.free)
    (short : ∀ o ∈ d.objects, ShortFigure o.name ∧ ShortFigure o.size)
    (storable : Storable s d.objects) :
    ∃ limit out m, s.sizeLimit = .ofCount limit ∧
      (Rendering.fresh s.bounds (report.rendering s)).outcome d = (.ok out, d) ∧
      Body limit d.objects out m ∧
      (∀ o, ∃ line, (rowText o).encode = line ++ [10] ∧ 10 ∉ line) ∧
      ∀ (config' : Value) (s' : Settings), Settings.resolve machine config' = .ok s' →
        s'.sizeLimit ≤ s.sizeLimit →
          ∃ out', (Rendering.fresh s'.bounds (report.rendering s')).outcome d = (.ok out', d) ∧
            out'.content.toList <+: out.content.toList := by
  obtain ⟨limit, capacity, hbounds, -, hmargin⟩ := Settings.bounds_of_resolve accepted
  obtain ⟨out, m, hfresh, hbody⟩ := body_of_room hbounds hmargin free short storable
  have hlimit : s.sizeLimit = .ofCount limit := congrArg Bounds.sizeLimit hbounds
  refine ⟨limit, out, m, hlimit, hfresh, hbody, ?_, ?_⟩
  · intro o
    exact ⟨_, encode_rowText o, Text.newline_notMem_encode (printable_columns o)⟩
  · intro config' s' accepted' smaller
    obtain ⟨limit', capacity', hbounds', -, hmargin'⟩ := Settings.bounds_of_resolve accepted'
    have hlimit' : s'.sizeLimit = .ofCount limit' := congrArg Bounds.sizeLimit hbounds'
    have hle : limit' ≤ limit := by
      rwa [hlimit, hlimit', Number.ofCount_le_ofCount] at smaller
    have hstorable' : Storable s' d.objects := by
      refine storable.imp_left fun h => ?_
      rw [hlimit, Number.ofCount_le_ofCount] at h
      rw [hlimit', Number.ofCount_le_ofCount]
      omega
    obtain ⟨out', m', hfresh', hbody'⟩ := body_of_room hbounds' hmargin' free short hstorable'
    refine ⟨out', hfresh', ?_⟩
    have hfewer : m' ≤ m := hbody'.stops.mono hbody.stops hle
    have htake : d.objects.take m' = (d.objects.take m).take m' := by
      rw [List.take_take, Nat.min_eq_left hfewer]
    rw [hbody'.content, hbody.content, htake]
    exact table_take_prefix _ _

/-- Three objects, of which a size limit of 40 bytes shows the first. -/
def trio : Device :=
  { Sample.bare with
    objects := [⟨.ofCount 1, .ofCount 4096, ⟨1⟩, ⟨2⟩⟩, ⟨.ofCount 2, .ofCount 8192, ⟨1⟩, ⟨1⟩⟩,
      ⟨.ofCount 3, .ofCount 65536, ⟨2⟩, ⟨-1⟩⟩] }

def tight : Settings := { Settings.defaults with sizeLimit := .ofCount 40 }

theorem rows_trio :
    Settings.resolve "x64" (.record [("sizeLimit", .number (.ofCount 40))]) = .ok tight ∧
      trio.lockWord = Lock.free ∧
      (∀ o ∈ trio.objects, ShortFigure o.name ∧ ShortFigure o.size) ∧
      Storable tight trio.objects ∧
      ∃ out, (Rendering.fresh tight.bounds (report.rendering tight)).outcome trio =
        (.ok out, trio) ∧
        out.content.toList = table (trio.objects.take 1) := by
  have hresolve :
      Settings.resolve "x64" (.record [("sizeLimit", .number (.ofCount 40))]) = .ok tight :=
    Settings.resolve_of_validate rfl (by decide +kernel) (by decide +kernel)
  have hshort : ∀ o ∈ trio.objects, ShortFigure o.name ∧ ShortFigure o.size := by
    intro o ho
    simp only [trio, List.mem_cons, List.not_mem_nil, or_false] at ho
    rcases ho with rfl | rfl | rfl <;>
      exact ⟨shortFigure_ofCount (by decide), shortFigure_ofCount (by decide)⟩
  have hstorable : Storable tight trio.objects := storable_of_length tight hshort (by decide)
  refine ⟨hresolve, rfl, hshort, hstorable, ?_⟩
  obtain ⟨limit, out, m, hlimit, hfresh, hbody, -⟩ :=
    rows_stop_past_limit _ _ tight hresolve trio rfl hshort hstorable
  have hone : StopsAt 40 3 (fun k => (table (trio.objects.take k)).length) 1 :=
    ⟨by decide, by decide, Or.inr (by decide)⟩
  have hforty : ((40 : Nat) : Rat) = limit := Number.finite.inj hlimit
  obtain rfl : 40 = limit := by exact_mod_cast hforty
  obtain rfl : m = 1 := Nat.le_antisymm (hbody.stops.mono hone (Nat.le_refl 40))
    (hone.mono hbody.stops (Nat.le_refl 40))
  exact ⟨out, hfresh, hbody.content⟩

end Report.NamedObjects

end DeviceReports
