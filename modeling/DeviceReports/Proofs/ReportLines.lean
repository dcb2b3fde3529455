import DeviceReports.Device.Sample
import DeviceReports.Proofs.BlankedDevices
import DeviceReports.Proofs.LineFeeds
import DeviceReports.Proofs.LoadedReports

/-!
# Lines of reports

The reports on identity and on memory areas print texts of the snapshot as they are, so a line
feed in such a text ends a line of the report. Nothing else about a text does: what ends in a
whole report are the lines of its own and those of the line feeds it shows. No other report shows
a text of the snapshot, so the contents of texts make no difference to it.
-/

set_option autoImplicit false

namespace DeviceReports

open Text (Bytes)

/-- How many lines the content of a buffer ends. -/
def ReportBuffer.lines (out : ReportBuffer) : Nat := Bytes.lineFeeds out.content.toList

/-- A buffer that dropped nothing ends the lines of what was printed into it. -/
theorem Bounds.lines_printAll {sizeLimit capacity : Nat} {ts : List Text}
    (whole : ((Bounds.buffer sizeLimit capacity).printAll ts).truncated = false) :
    ((Bounds.buffer sizeLimit capacity).printAll ts).lines = (ts.map Text.lineFeeds).sum := by
  have hcount : Bytes.lineFeeds (ts.flatMap Text.encode) = (ts.map Text.lineFeeds).sum := by
    rw [Bytes.lineFeeds, List.count_flatMap]
    exact congrArg List.sum (List.map_congr_left fun t _ => Text.lineFeeds_encode t)
  rw [Bounds.buffer, ReportBuffer.printAll_new] at whole ⊢
  have hfits : (ts.flatMap Text.encode).length ≤ min capacity ReportBuffer.mostBytes :=
    Nat.le_of_not_lt (of_decide_eq_false whole)
  rw [← hcount, ReportBuffer.lines, ReportBuffer.content_holding, List.take_of_length_le hfits]

theorem Text.lineFeeds_flatten (ts : List Text) :
    Text.lineFeeds ts.flatten = (ts.map Text.lineFeeds).sum := List.count_flatten

/-- A text column shows the line feeds among its first units. -/
theorem Column.lineFeeds_left_ofNat (t : Text) {n : Nat} (exact : n ≤ Number.exactBound) :
    (left t (Number.ofNat n)).lineFeeds = Text.lineFeeds (t.take n) := by
  have hcut : cut t (Number.ofNat n) = t.take n := by
    rw [cut, Number.ofNat_eq_ofCount exact, Number.position_ofCount, ← List.take_eq_take_min]
  rw [left, Text.lineFeeds_padEnd, hcut]

namespace Report

/-- The buffer that a report of a device is rendered into. -/
def rendered (r : Report) (s : Settings) (d : Device) : Except Stop ReportBuffer :=
  ((Rendering.fresh s.bounds (r.rendering s)).outcome d).1

variable {s : Settings} {limit capacity : Nat}

/-- A report that lists pieces is rendered into a buffer that their texts were printed into. -/
theorem rendered_of_complete {r : Report} {pieces : Settings → Device → List Piece}
    (lists : r.Lists pieces) (unlocked : r.requiresLock = false)
    (bounds : s.bounds = Bounds.ofCounts limit capacity) {d : Device}
    (complete : Piece.ending (pieces s d) = .ok ()) :
    r.rendered s d = .ok ((Bounds.buffer limit capacity).printAll (Piece.texts (pieces s d))) := by
  have hrun := lists s d _ (Bounds.sound_buffer limit capacity)
  rw [complete] at hrun
  rw [rendered, bounds, rendering_unlocked unlocked, Reading.fresh_ofCounts, Rendering.into, hrun]

theorem rendered_of_lists {r : Report} {pieces : Settings → Device → List Piece}
    (lists : r.Lists pieces) (unlocked : r.requiresLock = false)
    (bounds : s.bounds = Bounds.ofCounts limit capacity) {d : Device} {ts : List Text}
    (texts : pieces s d = ts.map Except.ok) :
    r.rendered s d = .ok ((Bounds.buffer limit capacity).printAll ts) := by
  have hrendered := rendered_of_complete lists unlocked bounds (d := d)
    (by rw [texts, Piece.ending_ok])
  rwa [texts, Piece.texts_ok] at hrendered

namespace Identity

/-- The line feeds in the texts that identify a device. -/
def shownFeeds (d : Device) : Nat :=
  (Text.ofString d.driverName.display).lineFeeds + (Text.ofString d.busId.display).lineFeeds +
    (Text.ofString (d.unique.getD "")).lineFeeds

theorem lineFeeds_line (d : Device) :
    (Text.ofString (line d)).lineFeeds = 1 + shownFeeds d := by
  have hspace : (Text.ofString " ").lineFeeds = 0 := rfl
  have hend : (Text.ofString "\n").lineFeeds = 1 := rfl
  have hempty : (Text.ofString "").lineFeeds = 0 := rfl
  rw [line, shownFeeds]
  cases d.unique with
  | none =>
    simp only [place, Text.ofString_append, Text.lineFeeds_append, hspace, hend, Option.getD_none,
      hempty]
    omega
  | some u =>
    by_cases hu : u = ""
    · subst hu
      simp only [if_true, place, Text.ofString_append, Text.lineFeeds_append, hspace, hend,
        Option.getD_some, hempty]
      omega
    · simp only [if_neg hu, place, Text.ofString_append, Text.lineFeeds_append, hspace, hend,
        Option.getD_some]
      omega

end Identity

namespace MemoryAreas

open Column

/-- The line feeds that the column of an area's name shows. -/
def nameFeeds (a : MemoryArea) : Nat := Text.lineFeeds ((label a.name).take 9)

/-- The line feeds that the columns of all names show. -/
def shownFeeds (d : Device) : Nat := (d.memoryTracker.areas.map nameFeeds).sum

theorem title_ok : ∃ t, title = .ok t ∧ t.lineFeeds = 1 := ⟨_, rfl, by decide +kernel⟩

theorem header_ok : ∃ t, header = .ok t ∧ t.lineFeeds = 2 := ⟨_, rfl, by decide +kernel⟩

theorem summary_ok (name : String) (plain : (left (label name) 9).lineFeeds = 0)
    (kilobytes : Number) : ∃ t, summary name kilobytes = .ok t ∧ t.lineFeeds = 1 := by
  have hspace : (label " ").lineFeeds = 0 := rfl
  have hend : (label " kB         |\n").lineFeeds = 1 := rfl
  refine ⟨_, Piece.joined_ok [left (label name) 9, label " ", decimal 0 5, label " ", decimal 0 5,
    label " ", decimal 0 4, label " ", decimal kilobytes 10, label " kB         |\n"], ?_⟩
  rw [Text.lineFeeds_flatten]
  simp [plain, hspace, hend]

theorem row_ok (a : MemoryArea) : ∃ t, row a = .ok t ∧ t.lineFeeds = 1 + nameFeeds a := by
  have hspace : (label " ").lineFeeds = 0 := rfl
  have hbar : (label " | ").lineFeeds = 0 := rfl
  have hend : (label "\n").lineFeeds = 1 := rfl
  have hname : (left (label a.name) 9).lineFeeds = nameFeeds a :=
    lineFeeds_left_ofNat (label a.name) (by decide)
  refine ⟨_, Piece.joined_ok [left (label a.name) 9, label " ", decimal a.succeedCount 5, label " ",
    decimal a.freeCount 5, label " ", decimal a.failCount 4, label " ", decimal a.bytesAllocated 10,
    label " ", decimal a.bytesFreed 10, label " | ", decimal (a.succeedCount - a.freeCount) 6,
    label " ", decimal (a.bytesAllocated - a.bytesFreed) 10, label "\n"], ?_⟩
  rw [Text.lineFeeds_flatten]
  simp [hname, hspace, hbar, hend, Nat.add_comm]

theorem rows_ok (areas : List MemoryArea) :
    ∃ ts : List Text, areas.map row = ts.map Except.ok ∧
      (ts.map Text.lineFeeds).sum = areas.length + (areas.map nameFeeds).sum := by
  induction areas with
  | nil => exact ⟨[], rfl, rfl⟩
  | cons a rest ih =>
    obtain ⟨t, hrow, hfeeds⟩ := row_ok a
    obtain ⟨ts, hrows, hsum⟩ := ih
    refine ⟨t :: ts, ?_, ?_⟩
    · rw [List.map_cons, List.map_cons, hrow, hrows]
    · rw [List.map_cons, List.sum_cons, hfeeds, hsum, List.map_cons, List.sum_cons,
        List.length_cons]
      omega

/-- The texts of a whole report. -/
theorem pieces_ok (s : Settings) (d : Device) :
    ∃ ts : List Text, [title, header, summary "system" (systemKilobytes s d.memoryTracker),
        summary "locked" (lockedKilobytes d.memoryTracker), Piece.newLine] ++
          d.memoryTracker.areas.map row = ts.map Except.ok ∧
      (ts.map Text.lineFeeds).sum = 6 + d.memoryTracker.areas.length + shownFeeds d := by
  obtain ⟨first, htitle, hone⟩ := title_ok
  obtain ⟨second, hheader, htwo⟩ := header_ok
  obtain ⟨third, hsystem, hthree⟩ := summary_ok "system" (by decide +kernel)
    (systemKilobytes s d.memoryTracker)
  obtain ⟨fourth, hlocked, hfour⟩ := summary_ok "locked" (by decide +kernel)
    (lockedKilobytes d.memoryTracker)
  obtain ⟨ts, hrows, hsum⟩ := rows_ok d.memoryTracker.areas
  have hend : (Text.ofString "\n").lineFeeds = 1 := rfl
  refine ⟨[first, second, third, fourth, Text.ofString "\n"] ++ ts, ?_, ?_⟩
  · rw [List.map_append, ← hrows, htitle, hheader, hsystem, hlocked]
    rfl
  · rw [List.map_append, List.sum_append, hsum, shownFeeds]
    simp only [List.map_cons, List.map_nil, List.sum_cons, List.sum_nil, hone, htwo, hthree, hfour,
      hend]
    omega

end MemoryAreas

/-! ### Reports that show no text -/

/-- A report that prints the same whatever the texts of a device are, where its memory controller
answers alike. -/
def Blind (r : Report) : Prop :=
  ∀ s d status, d.memoryControl = .constant status → ∀ out : ReportBuffer, out.Sound →
    ((r.generate s).outcome (d.blanked, out)).2.2 = ((r.generate s).outcome (d, out)).2.2

theorem blind_of_lists {r : Report} {pieces : Settings → Device → List Piece}
    (lists : r.Lists pieces)
    (same : ∀ s d, pieces s d.blanked = pieces s d) : r.Blind := by
  intro s d status _ out sound
  rw [lists s d.blanked out sound, lists s d out sound, same]

/-- Only the reports on identity and on memory areas show texts. -/
theorem builtin_blind {r : Report} (h : r ∈ builtin true) :
    r = Identity.report ∨ r = MemoryAreas.report ∨ r.Blind := by
  have hpieces (name : String) (requiresLock : Bool) (pieces : Settings → Device → List Piece)
      (same : ∀ s d, pieces s d.blanked = pieces s d) : (ofPieces name requiresLock pieces).Blind :=
    blind_of_lists (lists_ofPieces name requiresLock pieces) same
  simp only [builtin, core, debugging, if_true, List.mem_append, List.mem_cons, List.not_mem_nil,
    or_false] at h
  rcases h with (rfl | rfl | rfl | rfl | rfl | rfl | rfl | rfl | rfl) | rfl
  · exact Or.inl rfl
  · exact Or.inr (Or.inl rfl)
  · exact Or.inr (Or.inr (hpieces _ _ _ fun s d => rfl))
  · exact Or.inr (Or.inr (hpieces _ _ _ fun s d => rfl))
  · exact Or.inr (Or.inr (blind_of_lists Queues.lists fun s d => rfl))
  · exact Or.inr (Or.inr (hpieces _ _ _ fun s d => rfl))
  · refine Or.inr (Or.inr fun s d status constant out sound => ?_)
    have hconstant : d.blanked.memoryControl = .constant status := constant
    rw [Accounting.generate_constant s constant sound,
      Accounting.generate_constant s hconstant sound]
    rfl
  · refine Or.inr (Or.inr fun s d status _ out sound => ?_)
    rw [NamedObjects.outcome_generate s _ sound, NamedObjects.outcome_generate s _ sound]
    rfl
  · exact Or.inr (Or.inr (hpieces _ _ _ fun s d => rfl))
  · exact Or.inr (Or.inr (hpieces _ _ _ fun s d => rfl))

/-- A report is rendered with the lock held where it asks for it. -/
def lockedFor (r : Report) (d : Device) : Device :=
  if r.requiresLock then d.putLockWord Lock.held else d

theorem blanked_lockedFor (r : Report) (d : Device) :
    (r.lockedFor d).blanked = r.lockedFor d.blanked := by
  rw [lockedFor, lockedFor]
  cases r.requiresLock <;> rfl

/-- A report of a quiet device is rendered into what generating it prints. -/
theorem rendered_quiet {r : Report} (h : r ∈ builtin true)
    (bounds : s.bounds = Bounds.ofCounts limit capacity) {d : Device} (quiet : d.Quiet) :
    r.rendered s d =
      .ok ((r.generate s).outcome (r.lockedFor d, Bounds.buffer limit capacity)).2.2 := by
  obtain ⟨ts, hrun⟩ := quiet.rendering h s (Bounds.sound_buffer limit capacity)
  have hgenerated : ((r.rendering s).outcome (d, Bounds.buffer limit capacity)).2.2 =
      ((r.generate s).outcome (r.lockedFor d, Bounds.buffer limit capacity)).2.2 := by
    rw [lockedFor]
    cases hlock : r.requiresLock with
    | false =>
      rw [rendering_unlocked hlock]
      rfl
    | true =>
      rw [if_pos rfl]
      have hsteady : (d.putLockWord Lock.held).memoryControl.Steady := quiet.steady
      obtain ⟨e, us, hgenerate, hends, -⟩ :=
        builtin_generates h s hsteady (Bounds.sound_buffer limit capacity)
      rw [rendering_free hlock s quiet.unlocked hends hgenerate, hgenerate]
  rw [← hgenerated, rendered, bounds, Reading.fresh_ofCounts, Rendering.into, hrun]

theorem blank_rendered {r : Report} (h : r ∈ builtin true) (blind : r.Blind)
    (bounds : s.bounds = Bounds.ofCounts limit capacity) {d e : Device} (first : d.Quiet)
    (second : e.Quiet) (same : d.blanked = e.blanked) : r.rendered s d = r.rendered s e := by
  have hcontrol (d : Device) : (r.lockedFor d).memoryControl = d.memoryControl := by
    rw [lockedFor]
    split <;> rfl
  have hsound := Bounds.sound_buffer limit capacity
  obtain ⟨status, hfirst⟩ := first.constant
  obtain ⟨status', hsecond⟩ := second.constant
  rw [rendered_quiet h bounds first, rendered_quiet h bounds second,
    ← blind s (r.lockedFor d) status ((hcontrol d).trans hfirst) _ hsound,
    ← blind s (r.lockedFor e) status' ((hcontrol e).trans hsecond) _ hsound,
    blanked_lockedFor, blanked_lockedFor, same]

theorem Identity.rendered_lines (bounds : s.bounds = Bounds.ofCounts limit capacity) (d : Device) :
    ∃ out, Identity.report.rendered s d = .ok out ∧
      (out.truncated = false → out.lines = 1 + Identity.shownFeeds d) := by
  have hpieces : [(line d : Piece)] = [Text.ofString (line d)].map Except.ok := rfl
  refine ⟨_, rendered_of_lists (lists_ofPieces _ _ _) rfl bounds hpieces, fun whole => ?_⟩
  rw [Bounds.lines_printAll whole, ← lineFeeds_line]
  rfl

theorem MemoryAreas.rendered_lines (bounds : s.bounds = Bounds.ofCounts limit capacity)
    (d : Device) :
    ∃ out, MemoryAreas.report.rendered s d = .ok out ∧
      (out.truncated = false →
        out.lines = 6 + d.memoryTracker.areas.length + MemoryAreas.shownFeeds d) := by
  obtain ⟨ts, hpieces, hfeeds⟩ := pieces_ok s d
  refine ⟨_, rendered_of_lists (lists_ofPieces _ _ _) rfl bounds hpieces, fun whole => ?_⟩
  rw [Bounds.lines_printAll whole, hfeeds]

/-- The line feeds of a device's texts that a report shows. -/
def shownFeeds (r : Report) (d : Device) : Nat :=
  if r.name = Identity.report.name then Identity.shownFeeds d
  else if r.name = MemoryAreas.report.name then MemoryAreas.shownFeeds d
  else 0

/-- The report on identity ends one line, and the report on memory areas six and one for each
area, but for the line feeds that they show of a snapshot's texts. Snapshots that differ in texts
alone make no difference to any other report, and to the number of lines of these two none but
that of the line feeds they show. -/
theorem lines_but_for_shown_feeds (machine : String) (config : Value) (s : Settings)
    (accepted : Settings.resolve machine config = .ok s) :
    (∀ document source d, Snapshot.load document source = .ok d →
      (∃ out, Identity.report.rendered s d = .ok out ∧
        (out.truncated = false → out.lines = 1 + Identity.shownFeeds d)) ∧
      ∃ out, MemoryAreas.report.rendered s d = .ok out ∧
        (out.truncated = false →
          out.lines = 6 + d.memoryTracker.areas.length + MemoryAreas.shownFeeds d)) ∧
    ∀ v w source source' d e, Snapshot.load v source = .ok d → Snapshot.load w source' = .ok e →
      v.blanked = w.blanked → ∀ r ∈ builtin true,
        ∃ out out', r.rendered s d = .ok out ∧ r.rendered s e = .ok out' ∧
          (r ≠ Identity.report → r ≠ MemoryAreas.report → out = out') ∧
          (out.truncated = false → out'.truncated = false → r.shownFeeds d = r.shownFeeds e →
            out.lines = out'.lines) := by
  obtain ⟨limit, capacity, hbounds, -⟩ := Settings.bounds_of_resolve accepted
  constructor
  · intro document source d _
    exact ⟨Identity.rendered_lines hbounds d, MemoryAreas.rendered_lines hbounds d⟩
  · intro v w source source' d e hfirst hsecond hsame r hr
    have hblanked := Snapshot.blanked_of_load hsame hfirst hsecond
    rcases builtin_blind hr with rfl | rfl | hblind
    · obtain ⟨out, hout, hlines⟩ := Identity.rendered_lines hbounds d
      obtain ⟨out', hout', hlines'⟩ := Identity.rendered_lines hbounds e
      refine ⟨out, out', hout, hout', fun h => absurd rfl h, fun whole whole' feeds => ?_⟩
      have hfeeds : Identity.shownFeeds d = Identity.shownFeeds e := feeds
      rw [hlines whole, hlines' whole', hfeeds]
    · obtain ⟨out, hout, hlines⟩ := MemoryAreas.rendered_lines hbounds d
      obtain ⟨out', hout', hlines'⟩ := MemoryAreas.rendered_lines hbounds e
      refine ⟨out, out', hout, hout', fun _ h => absurd rfl h, fun whole whole' feeds => ?_⟩
      have hfeeds : MemoryAreas.shownFeeds d = MemoryAreas.shownFeeds e := feeds
      have hareas : d.memoryTracker.areas.length = e.memoryTracker.areas.length := by
        have hlength := congrArg (fun x : Device => x.memoryTracker.areas.length) hblanked
        simpa [Device.blanked] using hlength
      rw [hlines whole, hlines' whole', hfeeds, hareas]
    · have hquiet := Snapshot.quiet_of_load hfirst
      have hrendered := blank_rendered hr hblind hbounds hquiet (Snapshot.quiet_of_load hsecond)
        hblanked
      have hout := rendered_quiet hr hbounds hquiet
      exact ⟨_, _, hout, hrendered ▸ hout, fun _ _ => rfl, fun _ _ _ => rfl⟩

/-! ### Forged lines -/

/-- A snapshot with a driver and one memory area of the given names. -/
def named (driver area : String) : Value :=
  .record (Sample.figures [("index", 0)] ++ [("driverName", .string driver),
    ("busId", .string "pci"), ("memoryTracker", .record [("areas", .list [.record
      (("name", .string area) :: Sample.figures [("succeedCount", 1), ("freeCount", 0),
        ("failCount", 0), ("bytesAllocated", 8), ("bytesFreed", 0)])])])])

/-- The device of such a snapshot. -/
def namedDevice (driver area : String) : Device :=
  Device.ofValue (Schema.normalized Snapshot.schema (named driver area))

/-- A report that lists pieces ends the lines of its texts where the default capacity holds them. -/
theorem rendered_whole {r : Report} {pieces : Settings → Device → List Piece}
    (lists : r.Lists pieces) (unlocked : r.requiresLock = false) {d : Device} {n : Nat}
    (complete : (Piece.ending (pieces Settings.defaults d)).toOption = some ())
    (fits : ((Piece.texts (pieces Settings.defaults d)).flatMap Text.encode).length ≤ 4096)
    (feeds : ((Piece.texts (pieces Settings.defaults d)).map Text.lineFeeds).sum = n) :
    ∃ out, r.rendered Settings.defaults d = .ok out ∧ out.truncated = false ∧ out.lines = n := by
  have hbounds : Settings.defaults.bounds = Bounds.ofCounts 4016 4096 := rfl
  have hwhole : ((Bounds.buffer 4016 4096).printAll
      (Piece.texts (pieces Settings.defaults d))).truncated = false := by
    rw [Bounds.buffer, ReportBuffer.printAll_new]
    exact decide_eq_false (Nat.not_lt.mpr fits)
  refine ⟨_, rendered_of_complete lists unlocked hbounds (eq_ok_of_toOption complete), hwhole, ?_⟩
  rw [Bounds.lines_printAll hwhole, feeds]

/-- A line feed in the driver's name and one in an area's name add a line each. -/
theorem lines_forged :
    Snapshot.load (named "gfx\nvga" "a\nb") = .ok (namedDevice "gfx\nvga" "a\nb") ∧
      Snapshot.load (named "gfxvga" "ab") = .ok (namedDevice "gfxvga" "ab") ∧
      (named "gfx\nvga" "a\nb").blanked = (named "gfxvga" "ab").blanked ∧
      (∃ out, Identity.report.rendered Settings.defaults (namedDevice "gfx\nvga" "a\nb") = .ok out ∧
        out.truncated = false ∧ out.lines = 2) ∧
      (∃ out, Identity.report.rendered Settings.defaults (namedDevice "gfxvga" "ab") = .ok out ∧
        out.truncated = false ∧ out.lines = 1) ∧
      (∃ out, MemoryAreas.report.rendered Settings.defaults (namedDevice "gfx\nvga" "a\nb") =
        .ok out ∧ out.truncated = false ∧ out.lines = 8) ∧
      ∃ out, MemoryAreas.report.rendered Settings.defaults (namedDevice "gfxvga" "ab") = .ok out ∧
        out.truncated = false ∧ out.lines = 7 := by
  refine ⟨Snapshot.load_eq_ok.mpr ⟨(Schema.issues_eq_nil _ [] _).mp rfl, rfl⟩,
    Snapshot.load_eq_ok.mpr ⟨(Schema.issues_eq_nil _ [] _).mp rfl, rfl⟩, rfl, ?_, ?_, ?_, ?_⟩
  · exact rendered_whole (lists_ofPieces _ _ _) rfl rfl (by decide +kernel) (by decide +kernel)
  · exact rendered_whole (lists_ofPieces _ _ _) rfl rfl (by decide +kernel) (by decide +kernel)
  · exact rendered_whole (lists_ofPieces _ _ _) rfl (by decide +kernel) (by decide +kernel)
      (by decide +kernel)
  · exact rendered_whole (lists_ofPieces _ _ _) rfl (by decide +kernel) (by decide +kernel)
      (by decide +kernel)

/-- Two drivers with a line feed each are told by as many lines. -/
theorem lines_moved :
    Settings.resolve "x64" .missing = .ok Settings.defaults ∧
      Snapshot.load (named "gfx\nvga" "a") = .ok (namedDevice "gfx\nvga" "a") ∧
      Snapshot.load (named "g\nfx" "a") = .ok (namedDevice "g\nfx" "a") ∧
      (named "gfx\nvga" "a").blanked = (named "g\nfx" "a").blanked ∧
      ∃ out out', Identity.report.rendered Settings.defaults (namedDevice "gfx\nvga" "a") =
        .ok out ∧
        Identity.report.rendered Settings.defaults (namedDevice "g\nfx" "a") = .ok out' ∧
        out.lines = out'.lines := by
  have hfirst : Snapshot.load (named "gfx\nvga" "a") = .ok (namedDevice "gfx\nvga" "a") :=
    Snapshot.load_eq_ok.mpr ⟨(Schema.issues_eq_nil _ [] _).mp rfl, rfl⟩
  have hsecond : Snapshot.load (named "g\nfx" "a") = .ok (namedDevice "g\nfx" "a") :=
    Snapshot.load_eq_ok.mpr ⟨(Schema.issues_eq_nil _ [] _).mp rfl, rfl⟩
  obtain ⟨out, out', hout, hout', -, hlines⟩ := (lines_but_for_shown_feeds "x64" .missing
    Settings.defaults Settings.resolve_missing).2 _ _ _ _ _ _ hfirst hsecond rfl Identity.report
    List.mem_cons_self
  obtain ⟨_, hsame, hwhole, -⟩ := rendered_whole (r := Identity.report)
    (d := namedDevice "gfx\nvga" "a") (n := 2) (lists_ofPieces _ _ _) rfl rfl (by decide +kernel)
    (by decide +kernel)
  obtain ⟨_, hsame', hwhole', -⟩ := rendered_whole (r := Identity.report)
    (d := namedDevice "g\nfx" "a") (n := 2) (lists_ofPieces _ _ _) rfl rfl (by decide +kernel)
    (by decide +kernel)
  obtain rfl := Except.ok.inj (hsame.symm.trans hout)
  obtain rfl := Except.ok.inj (hsame'.symm.trans hout')
  exact ⟨Settings.resolve_missing, hfirst, hsecond, rfl, _, _, hout, hout',
    hlines hwhole hwhole' (by decide +kernel)⟩

end Report

end DeviceReports
