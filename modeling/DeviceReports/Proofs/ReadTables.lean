import DeviceReports.Proofs.ReadColumns

/-!
# Tables read back

A table is a header, an empty line and a line for each row. Its reader asks for all of that: for the
header as it stands, for the empty line, for an end after the last line, and for as many words in
each line as the table has columns. A line without breaks in it is found again between the breaks,
so a body gives back its rows if each line alone gives back its own.
-/

set_option autoImplicit false

namespace DeviceReports

open Text (Bytes)

namespace Text

def newline : UInt16 := 10

/-- The text of ASCII bytes, a unit for each of them. -/
def ofAscii (bytes : Bytes) : Text := bytes.map UInt8.toUInt16

/-- What stands between the breaks of a text. -/
def lines (t : Text) : List Text := t.splitOnP (· == newline)

variable {t : Text}

theorem ofAscii_encode (plain : t.Plain) : ofAscii t.encode = t := by
  have hunit : ∀ u ∈ t, (UInt8.ofNat u.toNat).toUInt16 = u := by
    intro u hu
    have hsize : u.toNat < UInt8.size := Nat.lt_trans (plain u hu) (by decide)
    apply UInt16.toNat_inj.mp
    rw [UInt8.toNat_toUInt16, UInt8.toNat_ofNat_of_lt' hsize]
  rw [ofAscii, encode_plain plain, List.map_map]
  exact (List.map_congr_left hunit).trans (List.map_id' t)

theorem Printable.newline_notMem (printable : t.Printable) : newline ∉ t :=
  fun h => absurd (printable newline h).1 (by decide)

theorem lines_append_newline (printable : t.Printable) (u : Text) :
    lines (t ++ newline :: u) = t :: lines u := by
  have hwhole : t.splitOnP (· == newline) = [t] := by
    refine List.splitOnP_eq_singleton fun x hx => beq_eq_false_iff_ne.mpr ?_
    rintro rfl
    exact printable.newline_notMem hx
  rw [lines, List.splitOnP_append_cons (p := (· == newline)) t u (beq_self_eq_true _), hwhole]
  rfl

/-- Lines with a break after each of them. -/
def ended (ts : List Text) : Text := ts.flatMap (· ++ [newline])

theorem ended_cons (t : Text) (ts : List Text) : ended (t :: ts) = t ++ newline :: ended ts := by
  rw [ended, List.flatMap_cons, List.append_assoc]
  rfl

theorem ended_append (ts us : List Text) : ended (ts ++ us) = ended ts ++ ended us :=
  List.flatMap_append

theorem flatten_ended {α : Type} (xs : List α) (line : α → Text) :
    (xs.map fun x => line x ++ [newline]).flatten = ended (xs.map line) := by
  rw [ended, List.flatMap_map]
  rfl

theorem lines_ended {ts : List Text} (printable : ∀ t ∈ ts, t.Printable) :
    lines (ended ts) = ts ++ [[]] := by
  induction ts with
  | nil => rfl
  | cons t rest ih =>
    obtain ⟨hfirst, hrest⟩ := List.forall_mem_cons.mp printable
    rw [ended_cons, lines_append_newline hfirst, ih hrest, List.cons_append]

theorem plain_ended {ts : List Text} (printable : ∀ t ∈ ts, t.Printable) : (ended ts).Plain := by
  intro u hu
  obtain ⟨t, ht, hmem⟩ := List.mem_flatMap.mp hu
  rcases List.mem_append.mp hmem with hline | hbreak
  · exact (printable t ht u hline).2
  · rw [List.mem_singleton.mp hbreak]
    decide

end Text

/-! ### Rows -/

namespace Column

/-- Columns with a space between any two. -/
def spaced (columns : List Text) : Text := [space].intercalate columns

theorem spaced_cons_cons (t u : Text) (rest : List Text) :
    spaced (t :: u :: rest) = t ++ space :: spaced (u :: rest) := by
  simp [spaced, List.intercalate]

theorem words_spaced (columns : List Text) :
    (spaced columns).words = columns.flatMap Text.words := by
  induction columns with
  | nil => rfl
  | cons t rest ih =>
    cases rest with
    | nil => simp [spaced]
    | cons u others => rw [spaced_cons_cons, Text.words_append_space, ih, ← List.flatMap_cons]

theorem printable_spaced {columns : List Text} (printable : ∀ t ∈ columns, t.Printable) :
    (spaced columns).Printable := by
  induction columns with
  | nil => exact nofun
  | cons t rest ih =>
    obtain ⟨hfirst, hrest⟩ := List.forall_mem_cons.mp printable
    cases rest with
    | nil => simpa [spaced] using hfirst
    | cons u others =>
      rw [spaced_cons_cons]
      exact hfirst.spaced (ih hrest)

/-- A row of columns is one piece, with the end of its line. -/
theorem joined_spaced (columns : List Text) :
    Piece.joined ((columns.intersperse (label " ") ++ [label "\n"]).map Except.ok) =
      .ok (spaced columns ++ [Text.newline]) := by
  rw [Piece.joined_ok, List.flatten_append]
  rfl

end Column

/-! ### Tables -/

/-- A table: the line above its rows, the number of its columns, and what the words of a line
tell. -/
structure Table (β : Type) where
  header : Text
  columns : Nat
  row : List Text → Option β

namespace Table

variable {β : Type} {t : Table β}

/-- What a line tells; one with more or fewer words than the table has columns tells nothing. -/
def readLine (t : Table β) (line : Text) : Option β :=
  if line.words.length = t.columns then t.row line.words else none

/-- The rows of a body: it has the header, an empty line and then nothing but rows, and the last
line is ended as well. -/
def read (t : Table β) (body : Bytes) : Option (List β) :=
  match (Text.ofAscii body).lines with
  | first :: second :: rest =>
    if first = t.header ∧ second = [] ∧ rest.getLast? = some [] then rest.dropLast.mapM t.readLine
    else none
  | _ => none

/-- Lines made of things tell what each of them stands for. -/
theorem map_readLine {α : Type} {xs : List α} {line : α → Text} {shown : α → β}
    (h : ∀ x ∈ xs, t.readLine (line x) = some (shown x)) :
    (xs.map line).map t.readLine = (xs.map shown).map some := by
  rw [List.map_map, List.map_map]
  refine List.map_congr_left fun x hx => ?_
  rw [Function.comp_apply, Function.comp_apply, h x hx]

theorem mapM_of_map {α : Type} {f : α → Option β} {xs : List α} {ys : List β}
    (h : xs.map f = ys.map some) : xs.mapM f = some ys := by
  induction xs generalizing ys with
  | nil =>
    obtain rfl := List.map_eq_nil_iff.mp h.symm
    rfl
  | cons x rest ih =>
    cases ys with
    | nil => cases h
    | cons y others =>
      obtain ⟨hfirst, hrest⟩ := List.cons.inj h
      rw [List.mapM_cons, hfirst, ih hrest]
      rfl

/-- A table is read back if each of its lines is. -/
theorem read_ended {lines : List Text} {shown : List β} (header : t.header.Printable)
    (printable : ∀ line ∈ lines, line.Printable) (rows : lines.map t.readLine = shown.map some) :
    t.read (Text.ended (t.header :: [] :: lines)).encode = some shown := by
  have hprintable : ∀ line ∈ t.header :: [] :: lines, line.Printable :=
    List.forall_mem_cons.mpr ⟨header, List.forall_mem_cons.mpr ⟨nofun, printable⟩⟩
  have hrows : lines.mapM t.readLine = some shown := mapM_of_map rows
  rw [read, Text.ofAscii_encode (Text.plain_ended hprintable), Text.lines_ended hprintable]
  dsimp only [List.cons_append]
  rw [List.getLast?_concat, List.dropLast_concat, if_pos ⟨rfl, rfl, rfl⟩, hrows]

end Table

/-! ### Bodies -/

/-- The body of a report under some settings: what it prints for a device into any fresh buffer that
holds that much, with the lock held or, where the lock is free, by itself. The device is left as it
was. -/
def Report.Body (r : Report) (s : Settings) (d : Device) (body : Bytes) : Prop :=
  ∀ limit capacity, body.length ≤ capacity → ∃ out : ReportBuffer,
    out.content.toList = body ∧ out.truncated = false ∧
    (r.generate s).outcome (d, .new limit capacity) = (.ok (), (d, out)) ∧
    (d.lockWord = Lock.free →
      (r.rendering s).outcome (d, .new limit capacity) = (.ok (), (d, out)))

namespace Report

variable {r : Report} {d : Device} {pieces : Settings → Device → List Piece} {ts : List Text}

theorem encode_flatten (plain : ∀ t ∈ ts, t.Plain) :
    Text.encode ts.flatten = ts.flatMap Text.encode := by
  induction ts with
  | nil => rfl
  | cons t rest ih =>
    obtain ⟨hfirst, hrest⟩ := List.forall_mem_cons.mp plain
    have hothers : Text.Plain rest.flatten := by
      intro u hu
      obtain ⟨t, ht, hmem⟩ := List.mem_flatten.mp hu
      exact hrest t ht u hmem
    rw [List.flatten_cons, Text.encode_append hfirst hothers, ih hrest, List.flatMap_cons]

/-- The body of a report that lists texts is all of them. -/
theorem body_of_lists {s : Settings} (lists : r.Lists pieces) (locked : r.requiresLock = true)
    (apart : pieces s (d.putLockWord Lock.held) = pieces s d)
    (texts : pieces s d = ts.map Except.ok) (plain : ∀ t ∈ ts, t.Plain) :
    r.Body s d (Text.encode ts.flatten) := by
  intro limit capacity fits
  have hbuffer := ReportBuffer.printAll_new limit capacity ts
  have hsound := ReportBuffer.sound_new limit capacity
  rw [encode_flatten plain] at fits ⊢
  refine ⟨ReportBuffer.holding limit capacity (ts.flatMap Text.encode), ?_,
    decide_eq_false (Nat.not_lt.mpr fits), ?_, fun free => ?_⟩
  · rw [ReportBuffer.content_holding, List.take_of_length_le fits]
  · rw [lists s d _ hsound, texts, Piece.ending_ok, Piece.texts_ok, hbuffer]
  · rw [lists.rendering_free locked s free hsound, apart, texts, Piece.ending_ok, Piece.texts_ok,
      hbuffer]

theorem Body.unique {s : Settings} {body other : Bytes} (first : r.Body s d body)
    (second : r.Body s d other) : body = other := by
  obtain ⟨out, hout, -, hrun, -⟩ := first (.ofCount 0) (body.length + other.length)
    (Nat.le_add_right _ _)
  obtain ⟨out', hout', -, hrun', -⟩ := second (.ofCount 0) (body.length + other.length)
    (Nat.le_add_left _ _)
  rw [hrun] at hrun'
  cases hrun'
  exact hout.symm.trans hout'

/-! ### Reading back -/

variable {β : Type} {t : Table β} {shown other : List β} {e : Device}

/-- A report whose body for a device, under any settings, is a table with the given rows. -/
def ReadsBack (r : Report) (t : Table β) (d : Device) (shown : List β) : Prop :=
  ∃ body, (∀ s, r.Body s d body) ∧ t.read body = some shown

/-- The report has one body for two devices under some settings. -/
def Coincides (r : Report) (d e : Device) : Prop := ∃ s body, r.Body s d body ∧ r.Body s e body

/-- A report that prints the heading of a table and then its lines is read back if each line is. -/
theorem readsBack_of_lists (lists : r.Lists pieces) (locked : r.requiresLock = true)
    (apart : ∀ s, pieces s (d.putLockWord Lock.held) = pieces s d) {heading : Text}
    {lines : List Text} (texts : ∀ s, pieces s d = (heading :: ts).map Except.ok)
    (headed : heading = Text.ended [t.header, []]) (header : t.header.Printable)
    (plain : ∀ t ∈ ts, t.Plain) (whole : ts.flatten = Text.ended lines)
    (printable : ∀ line ∈ lines, line.Printable) (rows : lines.map t.readLine = shown.map some) :
    r.ReadsBack t d shown := by
  have hheading : heading.Plain := by
    rw [headed]
    exact Text.plain_ended (List.forall_mem_cons.mpr ⟨header, List.forall_mem_singleton.mpr nofun⟩)
  have hbody (s : Settings) := body_of_lists lists locked (apart s) (texts s)
    (List.forall_mem_cons.mpr ⟨hheading, plain⟩)
  have hall : (heading :: ts).flatten = Text.ended (t.header :: [] :: lines) := by
    rw [List.flatten_cons, whole, headed, ← Text.ended_append]
    rfl
  exact ⟨_, hbody, hall ▸ t.read_ended header printable rows⟩

theorem ReadsBack.shown_eq (first : r.ReadsBack t d shown) (second : r.ReadsBack t e other)
    (same : r.Coincides d e) : shown = other := by
  obtain ⟨body, hbody, hread⟩ := first
  obtain ⟨body', hbody', hread'⟩ := second
  obtain ⟨s, common, hd, he⟩ := same
  rw [(hbody s).unique hd] at hread
  rw [(hbody' s).unique he, hread] at hread'
  exact Option.some.inj hread'

end Report

end DeviceReports
