import DeviceReports.Proofs.LineFeeds
import DeviceReports.Proofs.TableRows

/-!
# Reports of plain text

All but two reports print nothing but figures, marks and words of their own. These are of ASCII
units, whatever the device holds, so each unit is one byte and reads as one character. Only the
reports on identity and on memory areas print texts of the device.
-/

set_option autoImplicit false

namespace DeviceReports

namespace Text

theorem plain_flatten {ts : List Text} (plain : ∀ t ∈ ts, t.Plain) : Text.Plain ts.flatten := by
  intro u hu
  obtain ⟨t, ht, hmem⟩ := List.mem_flatten.mp hu
  exact plain t ht u hmem

end Text

namespace Piece

/-- A piece that, if it is a text, is one of ASCII units. -/
def Plain (p : Piece) : Prop := ∀ t, p = .ok t → t.Plain

@[simp] theorem plain_ok {t : Text} : Plain (.ok t) ↔ t.Plain := by
  constructor
  · intro h
    exact h t rfl
  · rintro h _ ⟨⟩
    exact h

@[simp] theorem plain_newLine : Plain newLine := plain_ok.mpr (by decide)

/-- A row of plain columns is plain. -/
theorem plain_joined {ps : List Piece} (plain : ∀ p ∈ ps, Plain p) : Plain (joined ps) := by
  induction ps with
  | nil => simp [joined, Text.Plain]
  | cons p rest ih =>
    obtain ⟨hfirst, hrest⟩ := List.forall_mem_cons.mp plain
    intro t ht
    cases p with
    | error e => cases ht
    | ok first =>
      have hothers := ih hrest
      rw [joined] at ht
      cases hjoined : joined rest with
      | error e =>
        rw [hjoined] at ht
        cases ht
      | ok others =>
        rw [hjoined] at ht
        obtain rfl := Except.ok.inj ht
        exact (plain_ok.mp hfirst).append (hothers others hjoined)

theorem plain_texts {ps : List Piece} (plain : ∀ p ∈ ps, Plain p) : ∀ t ∈ texts ps, t.Plain := by
  induction ps with
  | nil => exact nofun
  | cons p rest ih =>
    obtain ⟨hfirst, hrest⟩ := List.forall_mem_cons.mp plain
    cases p with
    | error e => exact nofun
    | ok t =>
      rw [texts]
      exact List.forall_mem_cons.mpr ⟨plain_ok.mp hfirst, ih hrest⟩

theorem eq_texts {ps : List Piece} (ready : ∀ p ∈ ps, Ready p) : ps = (texts ps).map Except.ok := by
  induction ps with
  | nil => rfl
  | cons p rest ih =>
    obtain ⟨⟨t, rfl⟩, hrest⟩ := List.forall_mem_cons.mp ready
    rw [texts, List.map_cons, ← ih hrest]

end Piece

namespace Column

@[simp] theorem plain_decimal (value width : Number) : (decimal value width).Plain :=
  (printable_decimal value width).plain

@[simp] theorem plain_hex (value digits : Number) : Piece.Plain (hex value digits) :=
  fun _ h => (graphic_hex h).printable.plain

@[simp] theorem plain_number (x : Number) : (Text.ofString x.text).Plain :=
  (Text.graphic_ofChars x.graphic_text).printable.plain

theorem plain_flag (isSet : Bool) {on off : String} (first : (label on).Plain)
    (second : (label off).Plain) : (flag isSet on off).Plain := by
  cases isSet with
  | true => exact first
  | false => exact second

end Column

namespace Report

theorem Clients.plain_pieces (clients : List Client) :
    ∀ p ∈ header :: clients.map row, p.Plain := by
  have hflag (c : Client) : (Column.flag c.authenticated "y" "n").Plain :=
    Column.plain_flag c.authenticated (by decide) (by decide)
  have hrow (c : Client) : (row c).Plain := Piece.plain_joined (by simp [hflag]; decide)
  have hheader : header.Plain := Piece.plain_ok.mpr (by decide)
  simp [hrow, hheader]

theorem Mappings.plain_rowsFrom (entries : List MapEntry) (slot : Nat) :
    ∀ p ∈ rowsFrom slot entries, p.Plain := by
  have htag (kind : Number) : (Column.right (Column.label (tag kind)) 4).Plain :=
    (printable_tag kind).plain
  have hrow (slot : Nat) (m : Mapping) (token : Number) : (row slot m token).Plain :=
    Piece.plain_joined (by simp [htag]; decide)
  have hregister (m : Mapping) : (register m).Plain := by
    rw [register]
    split
    · exact Piece.plain_ok.mpr (by decide)
    · exact Piece.plain_joined (by simp; decide)
  induction entries generalizing slot with
  | nil => simp [rowsFrom]
  | cons e rest ih =>
    rw [rowsFrom]
    cases e.mapping with
    | none => exact ih slot
    | some m => simpa [hrow, hregister] using ih (slot + 1)

theorem Mappings.plain_pieces (d : Device) : ∀ p ∈ header :: rowsFrom 0 d.maps, p.Plain := by
  have hheader : header.Plain := Piece.plain_ok.mpr (by decide)
  exact List.forall_mem_cons.mpr ⟨hheader, plain_rowsFrom d.maps 0⟩

theorem Queues.plain_pieces (d : Device) : ∀ p ∈ pieces d, p.Plain := by
  have hletter (isSet : Bool) {on : String} (plain : (Column.label on).Plain) :
      (Column.flag isSet on).Plain := Column.plain_flag isSet plain (by decide)
  have hblocked (q : JobQueue) : (blocked q).Plain :=
    (hletter _ (by decide)).append (hletter _ (by decide))
  have hwaiting (q : JobQueue) : (waiting q).Plain :=
    ((hletter _ (by decide)).append (hletter _ (by decide))).append
      (hletter _ (by decide))
  have hrow (i : Nat) (q : JobQueue) : (row i q).Plain :=
    Piece.plain_joined (by simp [hblocked, hwaiting, count]; decide)
  have hheader : header.Plain := Piece.plain_ok.mpr (by decide)
  intro p hp
  rcases List.mem_cons.mp hp with rfl | hp
  · exact hheader
  · obtain ⟨i, -, hpiece⟩ := List.mem_flatMap.mp hp
    rw [rowAt] at hpiece
    cases hq : d.queues[i]? with
    | none =>
      rw [hq] at hpiece
      cases hpiece
    | some q =>
      rw [hq] at hpiece
      obtain rfl := List.mem_singleton.mp hpiece
      exact hrow i (pin q)

theorem BufferPool.plain_indicesFrom (s : Settings) (buffers : List Number) (i : Nat) :
    ∀ p ∈ indicesFrom s i buffers, p.Plain := by
  have hentry (list : Number) : (Piece.joined [" ", Column.decimal list 0]).Plain :=
    Piece.plain_joined (by simp; decide)
  induction buffers generalizing i with
  | nil => simp [indicesFrom]
  | cons list rest ih =>
    rw [indicesFrom]
    split <;> simpa [hentry] using ih (i + 1)

theorem BufferPool.plain_pieces (s : Settings) (pool : DmaPool) :
    ∀ p ∈ pieces s pool, p.Plain := by
  have hrow (order : Nat) (c : BufferClass) : (row s order c).Plain :=
    Piece.plain_joined (by simp; decide)
  have hheader : header.Plain := Piece.plain_ok.mpr (by decide)
  have hindices := plain_indicesFrom s pool.buffers 0
  intro p hp
  simp only [pieces, List.mem_append, List.mem_cons, List.mem_map, List.not_mem_nil, or_false] at hp
  rcases hp with ((rfl | ⟨c, -, rfl⟩) | rfl | hp) | rfl
  · exact hheader
  · exact hrow c.1 c.2
  · exact Piece.plain_newLine
  · exact hindices p hp
  · exact Piece.plain_newLine

theorem ObjectTotals.plain_pieces (totals : ObjectStats) : ∀ p ∈ pieces totals, p.Plain := by
  have hline (n : Number) {what : String} (plain : (Text.ofString what).Plain) :
      (line n what).Plain := by
    rw [line]
    simp only [Text.ofString_append, Piece.plain_ok]
    exact (((Column.plain_number n).append (by decide)).append plain).append
      (by decide)
  have hall : ∀ what ∈ ["objects", "object bytes", "pinned", "pin bytes", "gtt bytes", "gtt total"],
      (Text.ofString what).Plain := by decide
  simp only [List.forall_mem_cons] at hall
  simp [pieces, hline, hall]

/-- A figure in a sentence. -/
theorem plain_sentence {before behind : String} (first : (Text.ofString before).Plain)
    (second : (Text.ofString behind).Plain) (x : Number) :
    (Text.ofString (before ++ x.text ++ behind)).Plain := by
  rw [Text.ofString_append, Text.ofString_append]
  exact (first.append (Column.plain_number x)).append second

theorem Accounting.plain_usage (s : Settings) {what : String}
    (plain : (Text.ofString what).Plain) (bytes : Number) :
    (Text.ofString (usage s what bytes)).Plain := by
  have hwhat : (Text.ofString (what ++ " is ")).Plain := by
    rw [Text.ofString_append]
    exact plain.append (by decide)
  rw [usage]
  split
  · exact plain_sentence hwhat (by decide) _
  · exact plain_sentence hwhat (by decide) bytes

theorem Accounting.plain_threshold (s : Settings) {what : String}
    (plain : (Text.ofString what).Plain) (bytes : Number) :
    (Text.ofString (threshold s what bytes)).Plain := by
  have hwhat : (Text.ofString (what ++ " memory usage threshold is ")).Plain := by
    rw [Text.ofString_append]
    exact plain.append (by decide)
  exact plain_sentence hwhat (by decide) _

theorem Accounting.plain_pieces (s : Settings) (d : Device) (status : MemoryStatus) :
    ∀ p ∈ pieces s d status, p.Plain := by
  have htitle (what : String) (plain : (Text.ofString what).Plain) : (title what).Plain := by
    rw [title, Piece.plain_ok, Text.ofString_append]
    exact plain.append (by decide)
  have hfences : (fenceLine d.fenceManager).Plain := by
    rw [fenceLine]
    split
    · exact Piece.plain_ok.mpr (plain_sentence (by decide) (by decide) _)
    · exact Piece.plain_ok.mpr (by decide)
  have hbuffers : ∀ p ∈ bufferLines d.bufferManager, p.Plain := by
    rw [bufferLines]
    split
    · intro p hp
      obtain rfl := List.mem_singleton.mp hp
      exact Piece.plain_ok.mpr (plain_sentence (by decide) (by decide) _)
    · simp
  have hlocked : (lockedPagesLine d.bufferManager).Plain := by
    rw [lockedPagesLine]
    split
    · exact Piece.plain_ok.mpr (plain_sentence (by decide) (by decide) _)
    · exact Piece.plain_ok.mpr (by decide)
  have hobjects : ∀ p ∈ objectPieces d, p.Plain := by
    have hfirst := htitle "Object accounting" (by decide)
    simpa [objectPieces, hfirst, hfences, or_imp, forall_and] using hbuffers
  have hmemory : ∀ p ∈ memoryPieces s d status, p.Plain := by
    have hfirst := htitle "Memory accounting" (by decide)
    have hused : (Text.ofString (usage s "Used object memory" status.usedMemory)).Plain :=
      plain_usage s (by decide) _
    have hemergency :
        (Text.ofString (usage s "Used emergency memory" status.usedEmergency)).Plain :=
      plain_usage s (by decide) _
    simp [memoryPieces, hfirst, hlocked, hused, hemergency]
  have hthresholds : ∀ p ∈ thresholdPieces s status, p.Plain := by
    have hall : ∀ what ∈ ["Soft object", "Hard object", "Emergency root only"], ∀ bytes,
        (Text.ofString (threshold s what bytes)).Plain := by
      intro what hwhat bytes
      have hplain : ∀ what ∈ ["Soft object", "Hard object", "Emergency root only"],
          (Text.ofString what).Plain := by decide
      exact plain_threshold s (hplain what hwhat) bytes
    simp only [List.forall_mem_cons] at hall
    simp [thresholdPieces, hall]
  intro p hp
  rcases List.mem_append.mp hp with hp | hp
  · exact (List.mem_append.mp hp).elim (hobjects p) (hmemory p)
  · exact hthresholds p hp

theorem VirtualAreas.plain_pieces (s : Settings) (d : Device) :
    ∀ p ∈ header d :: d.areas.flatMap (row s), p.Plain := by
  have hletters (ls : List Letter)
      (plain : ∀ l ∈ ls, (Column.label l.on).Plain ∧ (Column.label l.off).Plain) (x : Number) :
      (letters ls x).Plain := by
    intro u hu
    obtain ⟨l, hl, hletter⟩ := List.mem_flatMap.mp hu
    exact Column.plain_flag _ (plain l hl).1 (plain l hl).2 u hletter
  have haccess (x : Number) : (access x).Plain := hletters accessLetters (by decide) x
  have hprotection (x : Number) : (protection x).Plain :=
    hletters protectionLetters (by decide) x
  have hrange (pid : Number) (a : VirtualArea) : (range pid a).Plain :=
    Piece.plain_joined (by simp [haccess]; decide)
  have hbits (x : Number) : (Piece.joined [" ", protection x]).Plain :=
    Piece.plain_joined (by simp [hprotection]; decide)
  have hheader : (header d).Plain := Piece.plain_joined (by simp [Column.label]; decide)
  intro p hp
  rcases List.mem_cons.mp hp with rfl | hp
  · exact hheader
  · obtain ⟨e, -, hrow⟩ := List.mem_flatMap.mp hp
    rw [row] at hrow
    cases ha : e.area with
    | none =>
      rw [ha] at hrow
      cases hrow
    | some a =>
      rw [ha] at hrow
      dsimp only at hrow
      split at hrow
      · simp only [List.mem_cons, List.not_mem_nil, or_false] at hrow
        rcases hrow with rfl | rfl | rfl
        · exact hrange e.pid a
        · exact hbits a.pageProtection
        · exact Piece.plain_newLine
      · simp only [List.mem_cons, List.not_mem_nil, or_false] at hrow
        rcases hrow with rfl | rfl
        · exact hrange e.pid a
        · exact Piece.plain_newLine

theorem NamedObjects.plain_texts (out : ReportBuffer) (objects : List NamedObject) :
    ∀ t ∈ headerText :: rowsInto out objects, t.Plain := by
  have hrow (o : NamedObject) : (rowText o).Plain := by
    have hend : (Text.ofString "\n").Plain := by decide
    rw [rowText]
    exact (Column.plain_decimal _ _).append ((Column.plain_decimal _ _).append
      ((Column.plain_decimal _ _).append ((Column.plain_decimal _ _).append hend)))
  have hrows : ∀ t ∈ rowsInto out objects, t.Plain := by
    induction objects generalizing out with
    | nil => simp [rowsInto]
    | cons o rest ih =>
      rw [rowsInto]
      split
      · exact ih out
      · exact List.forall_mem_cons.mpr ⟨hrow o, ih _⟩
  exact List.forall_mem_cons.mpr ⟨by decide, hrows⟩

/-- A report that prints nothing but texts of ASCII units, whatever the texts of a device are. -/
def Plain (r : Report) : Prop := ∀ s d (out : ReportBuffer), out.Sound → ∃ ts : List Text,
  ((r.generate s).outcome (d, out)).2.2 = out.printAll ts ∧ ∀ t ∈ ts, t.Plain

theorem plain_of_lists {r : Report} {pieces : Settings → Device → List Piece}
    (lists : r.Lists pieces) (plain : ∀ s d, ∀ p ∈ pieces s d, p.Plain) : r.Plain := by
  intro s d out sound
  refine ⟨Piece.texts (pieces s d), ?_, Piece.plain_texts (plain s d)⟩
  rw [lists s d out sound]

/-- Only the reports on identity and on memory areas print anything else. -/
theorem builtin_plain {r : Report} (h : r ∈ builtin true) :
    r = Identity.report ∨ r = MemoryAreas.report ∨ r.Plain ∧ r.name ≠ MemoryAreas.report.name := by
  simp only [builtin, core, debugging, if_true, List.mem_append, List.mem_cons, List.not_mem_nil,
    or_false] at h
  rcases h with (rfl | rfl | rfl | rfl | rfl | rfl | rfl | rfl | rfl) | rfl
  · exact Or.inl rfl
  · exact Or.inr (Or.inl rfl)
  · exact Or.inr (Or.inr ⟨plain_of_lists (lists_ofPieces _ _ _)
      fun _ d => Mappings.plain_pieces d, by decide⟩)
  · exact Or.inr (Or.inr ⟨plain_of_lists (lists_ofPieces _ _ _)
      fun _ d => Clients.plain_pieces d.clients, by decide⟩)
  · exact Or.inr (Or.inr ⟨plain_of_lists Queues.lists fun _ d => Queues.plain_pieces d, by decide⟩)
  · refine Or.inr (Or.inr ⟨plain_of_lists (lists_ofPieces _ _ _) fun s d => ?_, by decide⟩)
    cases d.dma with
    | none => simp
    | some pool => exact BufferPool.plain_pieces s pool
  · refine Or.inr (Or.inr ⟨fun s d out sound => ?_, by decide⟩)
    rcases hquery : (Accounting.query.outcome d).1 with stop | status
    · rw [Accounting.generate_unanswered s hquery out]
      exact ⟨[], rfl, by simp⟩
    · rw [Accounting.generate_answered s hquery sound]
      exact ⟨_, rfl, Piece.plain_texts (Accounting.plain_pieces _ _ _)⟩
  · refine Or.inr (Or.inr ⟨fun s d out sound => ?_, by decide⟩)
    rw [NamedObjects.outcome_generate s d sound]
    exact ⟨_, rfl, NamedObjects.plain_texts _ _⟩
  · exact Or.inr (Or.inr ⟨plain_of_lists (lists_ofPieces _ _ _)
      fun _ d => ObjectTotals.plain_pieces d.objectStats, by decide⟩)
  · exact Or.inr (Or.inr ⟨plain_of_lists (lists_ofPieces _ _ _)
      fun s d => VirtualAreas.plain_pieces s d, by decide⟩)

end Report

end DeviceReports
