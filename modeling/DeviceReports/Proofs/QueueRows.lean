import DeviceReports.Device.Sample
import DeviceReports.Proofs.CounterWords
import DeviceReports.Proofs.LoadedReports
import DeviceReports.Proofs.Words

/-!
# Rows of job queues

A row of the report on job queues has eight words, whatever the figures of its queue are. Its use
count is that of the queue with the pin on top. A snapshot may hold any count that a counter can,
and the greatest of them is the one that the pin wraps: its row shows a negative figure.
-/

set_option autoImplicit false

namespace DeviceReports

namespace Report.Queues

open Column

variable {d : Device} {q : JobQueue} {flags : Text}

def headerText : Text := label
  "  ctx/flags   use   fin   blk/rw/rwf  wait    flushed     queued      locks\n\n"

/-- A row without the end of its line. -/
def line (i : Nat) (q : JobQueue) (flags : Text) : Text :=
  decimal i 5 ++ (label "/0x" ++ flags) ++ space :: (count q.useCount 5 ++ space ::
    (count q.finalization 5 ++ space ::
      (count q.blockCount 5 ++ (label "/" ++ blocked q ++ label "/" ++ waiting q) ++ space ::
        (decimal q.waitlistCount 5 ++ space :: (count q.totalFlushed 10 ++ space ::
          (count q.totalQueued 10 ++ space :: count q.totalLocks 10))))))

theorem row_eq (i : Nat) (hex : hex q.flags 3 = .ok flags) :
    row i q = .ok (line i q flags ++ label "\n") := by
  have hspace : label " " = [space] := rfl
  rw [row, hex, line]
  change Piece.joined ([decimal i 5, label "/0x", flags, label " ", count q.useCount 5, label " ",
    count q.finalization 5, label " ", count q.blockCount 5, label "/", blocked q, label "/",
    waiting q, label " ", decimal q.waitlistCount 5, label " ", count q.totalFlushed 10, label " ",
    count q.totalQueued 10, label " ", count q.totalLocks 10, label "\n"].map Except.ok) = _
  rw [Piece.joined_ok]
  simp only [hspace, List.flatten_cons, List.flatten_nil, List.append_assoc, List.cons_append,
    List.nil_append, List.append_nil]

theorem graphic_flag (isSet : Bool) {on : String} (graphic : (label on).Graphic) :
    (flag isSet on).Graphic := by
  cases isSet
  · exact show (label "-").Graphic by decide
  · exact graphic

theorem graphic_states (q : JobQueue) :
    Text.Graphic (label "/" ++ blocked q ++ label "/" ++ waiting q) := by
  have hslash : (label "/").Graphic := by decide
  have hread (isSet : Bool) : (flag isSet "r").Graphic := graphic_flag isSet (by decide)
  have hwrite (isSet : Bool) : (flag isSet "w").Graphic := graphic_flag isSet (by decide)
  have hflush (isSet : Bool) : (flag isSet "f").Graphic := graphic_flag isSet (by decide)
  have hblocked : (blocked q).Graphic := (hread _).append (hwrite _)
  have hwaiting : (waiting q).Graphic := ((hread _).append (hwrite _)).append (hflush _)
  exact ((hslash.append hblocked).append hslash).append hwaiting

/-- A row has one word for each of its columns. -/
theorem words_line (i : Nat) (q : JobQueue) (graphic : flags.Graphic) :
    Text.words (line i q flags) =
      [written i ++ (label "/0x" ++ flags), written q.useCount.number,
        written q.finalization.number,
        written q.blockCount.number ++ (label "/" ++ blocked q ++ label "/" ++ waiting q),
        written q.waitlistCount, written q.totalFlushed.number, written q.totalQueued.number,
        written q.totalLocks.number] := by
  have hmark : (label "/0x").Graphic := by decide
  have hcount (c : Counter) (width : Number) : Text.words (count c width) = [written c.number] :=
    words_decimal c.number width
  have hblocks : Text.words (count q.blockCount 5 ++
      (label "/" ++ blocked q ++ label "/" ++ waiting q)) =
      [written q.blockCount.number ++ (label "/" ++ blocked q ++ label "/" ++ waiting q)] :=
    words_decimal_append q.blockCount.number 5 (graphic_states q)
  simp only [line, Text.words_append_space, words_decimal_append _ _ (hmark.append graphic),
    words_decimal, hcount, hblocks, List.cons_append, List.nil_append]

theorem printable_line (i : Nat) (q : JobQueue) (graphic : flags.Graphic) :
    Text.Printable (line i q flags) := by
  have hmark : (label "/0x").Graphic := by decide
  have hcount (c : Counter) (width : Number) : (count c width).Printable := printable_decimal _ _
  have hplace : (decimal i 5 ++ (label "/0x" ++ flags)).Printable :=
    (printable_decimal _ _).append (hmark.append graphic).printable
  have hblocks : (count q.blockCount 5 ++
      (label "/" ++ blocked q ++ label "/" ++ waiting q)).Printable :=
    (hcount _ _).append (graphic_states q).printable
  refine hplace.spaced ((hcount _ _).spaced ((hcount _ _).spaced (hblocks.spaced ?_)))
  refine (printable_decimal _ _).spaced ((hcount _ _).spaced ?_)
  exact (hcount _ _).spaced (hcount _ _)

theorem rowAt_of_getElem? {queues : List JobQueue} {i : Nat} (h : queues[i]? = some q) :
    rowAt queues i = [row i (pin q)] := by
  rw [rowAt, h]

/-- There is a row for each queue, in the order of the queues. -/
theorem flatMap_rowAt (queues : List JobQueue) :
    (List.range queues.length).flatMap (rowAt queues) =
      queues.mapIdx fun i q => row i (pin q) := by
  induction queues using List.reverseRecOn with
  | nil => rfl
  | append_singleton rest q ih =>
    have hearlier : (List.range rest.length).flatMap (rowAt (rest ++ [q])) =
        (List.range rest.length).flatMap (rowAt rest) := by
      apply List.flatMap_congr
      intro i hi
      rw [rowAt, rowAt, List.getElem?_append_left (List.mem_range.mp hi)]
    have hlast : rowAt (rest ++ [q]) rest.length = [row rest.length (pin q)] := by
      apply rowAt_of_getElem?
      simp
    rw [List.length_append, List.length_singleton, List.range_succ, List.flatMap_append, hearlier,
      ih, List.mapIdx_concat, List.flatMap_singleton, hlast]

/-- With the lock free, the report prints its header and a row for each queue, and leaves the device
as it was. -/
theorem outcome_rendering (free : d.lockWord = Lock.free) {rows : List Text}
    (printed : (d.queues.mapIdx fun i q => row i (pin q)) =
      (rows.map (· ++ label "\n")).map Except.ok)
    (s : Settings) {out : ReportBuffer} (sound : out.Sound) :
    (report.rendering s).outcome (d, out) =
      (.ok (), (d, out.printAll (headerText :: rows.map (· ++ label "\n")))) := by
  have hpieces : pieces (d.putLockWord Lock.held) =
      (headerText :: rows.map (· ++ label "\n")).map Except.ok := by
    rw [List.map_cons, ← printed, ← flatMap_rowAt]
    rfl
  rw [lists.rendering_free rfl s free sound]
  change (Piece.ending (pieces (d.putLockWord Lock.held)),
    (d, out.printAll (Piece.texts (pieces (d.putLockWord Lock.held))))) = _
  rw [hpieces, Piece.ending_ok, Piece.texts_ok]

/-- Where the flags of all queues have texts, so have their rows. -/
theorem exists_lines (flags : ∀ q ∈ d.queues, q.flags ≠ .infinite true) :
    ∃ rows : List Text, rows.length = d.queues.length ∧
      (d.queues.mapIdx fun i q => row i (pin q)) = (rows.map (· ++ label "\n")).map Except.ok ∧
      ∀ i q, d.queues[i]? = some q →
        ∃ flags : Text, flags.Graphic ∧ rows[i]? = some (line i (pin q) flags) := by
  let shown (i : Nat) (q : JobQueue) : Text := line i (pin q) ((hex q.flags 3).toOption.getD [])
  have hhex : ∀ q ∈ d.queues, hex q.flags 3 = .ok ((hex q.flags 3).toOption.getD []) := by
    intro q hq
    obtain ⟨t, ht⟩ := ready_hex (flags q hq) 3
    rw [ht]
    rfl
  refine ⟨d.queues.mapIdx shown, List.length_mapIdx, ?_, ?_⟩
  · apply List.ext_getElem?
    intro i
    rw [List.getElem?_map, List.getElem?_map, List.getElem?_mapIdx, List.getElem?_mapIdx]
    cases hq : d.queues[i]? with
    | none => rfl
    | some q => exact congrArg some (row_eq i (hhex q (List.mem_of_getElem? hq)))
  · intro i q hq
    refine ⟨_, graphic_hex (hhex q (List.mem_of_getElem? hq)), ?_⟩
    rw [List.getElem?_mapIdx, hq]
    rfl

/-- The use counts of a snapshot's queues are counts. -/
theorem useCounts_of_load {document : Value} {source : String}
    (loaded : Snapshot.load document source = .ok d) :
    ∀ q ∈ d.queues, ∃ n ≤ Counter.maximum, q.useCount.value = n := by
  obtain ⟨hconforms, rfl⟩ := Snapshot.load_eq_ok.mp loaded
  have hchecked : Checked (.list Snapshot.queue) (document.field "queues")
      ((Schema.normalized Snapshot.schema document).field "queues") :=
    .of_field (by decide) hconforms "queues" rfl
  have hcounted : List.Forall₂
      (fun (_ : Value) (q : JobQueue) => ∃ n ≤ Counter.maximum, q.useCount.value = n)
      (document.field "queues").items
      (Device.ofValue (Schema.normalized Snapshot.schema document)).queues :=
    hchecked.items fun x hx =>
      JobQueue.described.counted hx (.counter "useCount" 0 (·.useCount))
        (by simp [JobQueue.rows]) rfl
  intro q hq
  obtain ⟨i, hi, rfl⟩ := List.getElem_of_mem hq
  exact hcounted.get (hcounted.length_eq ▸ hi) hi

/-- A pinned queue shows its use count with the pin on top. -/
theorem written_pinned {n : Nat} (count : q.useCount.value = n) (below : n < Counter.maximum) :
    written (pin q).useCount.number = label (toString (n + 1)) := by
  have hroom : q.useCount.value ≠ Counter.maximum := by omega
  have hmore : (pin q).useCount.value = (n + 1 : Nat) := by
    have hpinned := Counter.value_increment q.useCount
    rw [if_neg hroom, count] at hpinned
    exact hpinned
  have hexact : n + 1 ≤ Number.exactBound := by
    unfold Counter.maximum at below
    unfold Number.exactBound
    omega
  rw [Counter.number_of_value hmore, written_ofCount hexact]
  rfl

/-- Pinning the queue of the greatest use count wraps it. -/
theorem written_wrapped (greatest : q.useCount.value = Counter.maximum) :
    written (pin q).useCount.number = label "-2147483648" := by
  have hpinned : (pin q).useCount.value = -2147483648 := by
    have hpinned := Counter.value_increment q.useCount
    rw [if_pos greatest] at hpinned
    exact hpinned
  rw [Counter.number, hpinned]
  decide +kernel

/-- The report on the queues of a loaded device has a row for each of them in its order, one line
of eight words, and the second word is the queue's use count with the pin counted in; the greatest
count that a snapshot may hold is shown as a negative figure. -/
theorem use_counts_with_pin (document : Value) (source : String) (d : Device)
    (loaded : Snapshot.load document source = .ok d) :
    ∃ rows : List Text, rows.length = d.queues.length ∧
      (∀ s (out : ReportBuffer), out.Sound → (report.rendering s).outcome (d, out) =
        (.ok (), (d, out.printAll (headerText :: rows.map (· ++ label "\n"))))) ∧
      ∀ (i : Nat) (q : JobQueue), d.queues[i]? = some q → ∃ (row : Text) (n : Nat),
        rows[i]? = some row ∧ row.Printable ∧ row.words.length = 8 ∧
        q.useCount.value = n ∧ n ≤ Counter.maximum ∧
        (n < Counter.maximum → row.words[1]? = some (label (toString (n + 1)))) ∧
        (n = Counter.maximum → row.words[1]? = some (label "-2147483648")) := by
  have hquiet := Snapshot.quiet_of_load loaded
  obtain ⟨rows, hlength, hprinted, hlines⟩ := exists_lines hquiet.formattable.queues
  refine ⟨rows, hlength, fun s out => outcome_rendering hquiet.unlocked hprinted s, ?_⟩
  intro i q hq
  obtain ⟨flags, hflags, hrow⟩ := hlines i q hq
  obtain ⟨n, hn, hcount⟩ := useCounts_of_load loaded q (List.mem_of_getElem? hq)
  have hwords := words_line i (pin q) hflags
  refine ⟨_, n, hrow, printable_line i (pin q) hflags, ?_, hcount, hn, ?_, ?_⟩
  · rw [hwords]
    rfl
  · intro hbelow
    rw [hwords, written_pinned hcount hbelow]
    rfl
  · rintro rfl
    rw [hwords, written_wrapped hcount]
    rfl

/-! ### The greatest count -/

/-- A snapshot with one queue of a given use count. -/
def busy (uses : Nat) : Value :=
  .record (Sample.figures [("index", 0)] ++
    [("driverName", .string "gfx"), ("busId", .string "pci"),
      ("queues", .list [.record (Sample.figures [("useCount", uses)])])])

/-- The device of such a snapshot. -/
def busyDevice (uses : Nat) : Device :=
  Device.ofValue (Schema.normalized Snapshot.schema (busy uses))

/-- A queue that is used as often as a counter can tell is shown with a negative use count. -/
theorem use_count_wrapped :
    Snapshot.load (busy 2147483647) = .ok (busyDevice 2147483647) ∧
      (busyDevice 2147483647).queues.map (·.useCount.value) = [2147483647] ∧
      ∃ row : Text,
        (∀ s (out : ReportBuffer), out.Sound →
          (report.rendering s).outcome (busyDevice 2147483647, out) =
            (.ok (), (busyDevice 2147483647, out.printAll [headerText, row ++ label "\n"]))) ∧
        row.words[1]? = some (label "-2147483648") ∧
        row.words[1]? ≠ some (label (toString (2147483647 + 1))) := by
  have hloaded : Snapshot.load (busy 2147483647) = .ok (busyDevice 2147483647) :=
    Snapshot.load_eq_ok.mpr ⟨(Schema.issues_eq_nil _ [] _).mp rfl, rfl⟩
  have hquiet := Snapshot.quiet_of_load hloaded
  have hcounts : (busyDevice 2147483647).queues.map (·.useCount.value) = [2147483647] := by
    decide +kernel
  obtain ⟨q, hqueues, hcount⟩ := List.map_eq_singleton_iff.mp hcounts
  obtain ⟨rows, hlength, hprinted, hlines⟩ := exists_lines hquiet.formattable.queues
  obtain ⟨flags, hflags, hrow⟩ := hlines 0 q (by rw [hqueues]; rfl)
  rw [hqueues] at hlength
  obtain ⟨row, rfl⟩ := List.length_eq_one_iff.mp hlength
  obtain rfl := Option.some.inj hrow
  have hshown : (line 0 (pin q) flags).words[1]? = some (label "-2147483648") := by
    rw [words_line 0 (pin q) hflags, written_wrapped hcount]
    rfl
  refine ⟨hloaded, hcounts, _, fun s out => outcome_rendering hquiet.unlocked hprinted s, hshown,
    ?_⟩
  rw [hshown]
  decide +kernel

/-- One use less, and the count is shown with the pin. -/
theorem use_count_pinned :
    Snapshot.load (busy 2147483646) = .ok (busyDevice 2147483646) ∧
      ∃ rows : List Text, (∃ row ∈ rows, row.words[1]? = some (label (toString 2147483647))) ∧
        ∀ s (out : ReportBuffer), out.Sound →
          (report.rendering s).outcome (busyDevice 2147483646, out) =
            (.ok (), (busyDevice 2147483646,
              out.printAll (headerText :: rows.map (· ++ label "\n")))) := by
  have hloaded : Snapshot.load (busy 2147483646) = .ok (busyDevice 2147483646) :=
    Snapshot.load_eq_ok.mpr ⟨(Schema.issues_eq_nil _ [] _).mp rfl, rfl⟩
  obtain ⟨rows, -, hprints, hrows⟩ := use_counts_with_pin _ _ _ hloaded
  obtain ⟨row, n, hrow, -, -, hcount, -, hpinned, -⟩ := hrows 0 _ rfl
  have hn : n = 2147483646 := by
    have hvalue : ((n : Nat) : Int) = 2147483646 := hcount.symm.trans (by decide +kernel)
    omega
  subst hn
  exact ⟨hloaded, rows, ⟨row, List.mem_of_getElem? hrow, hpinned (by decide)⟩, hprints⟩

end Report.Queues

end DeviceReports
