import DeviceReports.Proofs.Printing

/-!
# Which reports can be formatted

Only a column in base 16 can fail, and only for negative infinity. On a device without such a
figure every piece of every built-in report is a text, whatever the other figures are. Its memory
controller may still fail to answer.
-/

set_option autoImplicit false

namespace DeviceReports

namespace Piece

/-- A piece that is a text. -/
def Ready (p : Piece) : Prop := ∃ t, p = .ok t

@[simp] theorem ready_ok (t : Text) : Ready (.ok t) := ⟨t, rfl⟩

theorem ending_of_ready {ps : List Piece} (ready : ∀ p ∈ ps, Ready p) : ending ps = .ok () := by
  induction ps with
  | nil => rfl
  | cons p rest ih =>
    obtain ⟨t, rfl⟩ := ready p (by simp)
    exact ih fun q hq => ready q (by simp [hq])

/-- A row of columns that are all texts is a text. -/
theorem ready_joined {ps : List Piece} (ready : ∀ p ∈ ps, Ready p) : Ready (joined ps) := by
  induction ps with
  | nil => exact ready_ok []
  | cons p rest ih =>
    obtain ⟨t, rfl⟩ := ready p (by simp)
    obtain ⟨others, hothers⟩ := ih fun q hq => ready q (by simp [hq])
    refine ⟨t ++ others, ?_⟩
    rw [joined, hothers]
    rfl

end Piece

/-- A device whose figures in base 16 all have a text: none is negative infinity. -/
structure Device.Formattable (d : Device) : Prop where
  tokens : ∀ e ∈ d.maps, e.userToken ≠ .infinite true
  mappings : ∀ e ∈ d.maps, ∀ m, e.mapping = some m →
    m.offset ≠ .infinite true ∧ m.size ≠ .infinite true ∧ m.flags ≠ .infinite true
  queues : ∀ q ∈ d.queues, q.flags ≠ .infinite true
  areas : ∀ e ∈ d.areas, ∀ a, e.area = some a →
    a.start ≠ .infinite true ∧ a.stop ≠ .infinite true ∧ a.pageOffset ≠ .infinite true
  highMemory : d.highMemory.virtual ≠ .infinite true ∧ d.highMemory.physical ≠ .infinite true

theorem Column.ready_hex {x : Number} (h : x ≠ .infinite true) (digits : Number) :
    Piece.Ready (Column.hex x digits) := by
  have htext : ∃ s, x.hexText? = some s := by
    cases x with
    | nan => exact ⟨_, rfl⟩
    | infinite negative =>
      cases negative with
      | true => exact absurd rfl h
      | false => exact ⟨_, rfl⟩
    | finite q =>
      rw [Number.hexText?]
      split <;> exact ⟨_, rfl⟩
  obtain ⟨s, hs⟩ := htext
  rw [Column.hex, hs]
  exact Piece.ready_ok _

namespace Report

theorem MemoryAreas.ready_pieces (s : Settings) (t : MemoryTracker) :
    ∀ p ∈ [title, header, summary "system" (systemKilobytes s t),
      summary "locked" (lockedKilobytes t), Piece.newLine] ++ t.areas.map row, p.Ready := by
  have hrow (a : MemoryArea) : (row a).Ready := Piece.ready_joined (by simp)
  have hsummary (name : String) (kilobytes : Number) : (summary name kilobytes).Ready :=
    Piece.ready_joined (by simp)
  have htitle : title.Ready := Piece.ready_joined (by simp)
  have hheader : header.Ready := Piece.ready_joined (by simp)
  simp [hrow, hsummary, htitle, hheader, Piece.newLine]

theorem Clients.ready_pieces (clients : List Client) :
    ∀ p ∈ header :: clients.map row, p.Ready := by
  have hrow (c : Client) : (row c).Ready := Piece.ready_joined (by simp)
  simp [hrow, header]

theorem Queues.ready_pieces {d : Device} (h : d.Formattable) : ∀ p ∈ Queues.pieces d, p.Ready := by
  intro p hp
  rcases List.mem_cons.mp hp with rfl | hp
  · exact Piece.ready_ok _
  · obtain ⟨i, -, hrow⟩ := List.mem_flatMap.mp hp
    rw [rowAt] at hrow
    rcases hq : d.queues[i]? with _ | q <;> rw [hq] at hrow
    · simp at hrow
    · rw [List.mem_singleton] at hrow
      have hflags : (pin q).flags ≠ .infinite true := h.queues q (List.mem_of_getElem? hq)
      rw [hrow, row]
      exact Piece.ready_joined (by simp [Piece.ready_ok, Column.ready_hex hflags])

theorem Mappings.ready_rowsFrom {entries : List MapEntry}
    (tokens : ∀ e ∈ entries, e.userToken ≠ .infinite true)
    (mappings : ∀ e ∈ entries, ∀ m, e.mapping = some m →
      m.offset ≠ .infinite true ∧ m.size ≠ .infinite true ∧ m.flags ≠ .infinite true)
    (slot : Nat) : ∀ p ∈ Mappings.rowsFrom slot entries, p.Ready := by
  induction entries generalizing slot with
  | nil => simp [rowsFrom]
  | cons e rest ih =>
    have hrest := ih (fun e he => tokens e (by simp [he])) fun e he => mappings e (by simp [he])
    rw [rowsFrom]
    rcases hm : e.mapping with _ | m
    · exact hrest slot
    · obtain ⟨hoffset, hsize, hflags⟩ := mappings e (by simp) m hm
      have htoken := tokens e (by simp)
      have hrow : (row slot m e.userToken).Ready := Piece.ready_joined (by
        simp [Column.ready_hex hoffset, Column.ready_hex hsize, Column.ready_hex hflags,
          Column.ready_hex htoken])
      have hregister : (register m).Ready := by
        rw [register]
        split
        · exact Piece.ready_ok _
        · exact Piece.ready_joined (by simp)
      intro p hp
      rcases List.mem_cons.mp hp with rfl | hp
      · exact hrow
      · rcases List.mem_cons.mp hp with rfl | hp
        · exact hregister
        · exact hrest (slot + 1) p hp

theorem Mappings.ready_pieces {d : Device} (h : d.Formattable) :
    ∀ p ∈ header :: rowsFrom 0 d.maps, p.Ready := by
  simpa [header] using ready_rowsFrom h.tokens h.mappings 0

theorem VirtualAreas.ready_header {d : Device} (h : d.Formattable) :
    (VirtualAreas.header d).Ready :=
  Piece.ready_joined (by
    simp [Column.ready_hex h.highMemory.1, Column.ready_hex h.highMemory.2])

theorem VirtualAreas.ready_row (s : Settings) {e : AreaEntry}
    (h : ∀ a, e.area = some a →
      a.start ≠ .infinite true ∧ a.stop ≠ .infinite true ∧ a.pageOffset ≠ .infinite true) :
    ∀ p ∈ VirtualAreas.row s e, p.Ready := by
  rw [row]
  rcases ha : e.area with _ | a
  · simp
  · obtain ⟨hstart, hstop, hoffset⟩ := h a ha
    have hrange : (range e.pid a).Ready := Piece.ready_joined (by
      simp [Column.ready_hex hstart, Column.ready_hex hstop, Column.ready_hex hoffset])
    have hletters : (Piece.joined [" ", protection a.pageProtection]).Ready :=
      Piece.ready_joined (by simp)
    dsimp only
    split <;> simp [hrange, hletters, Piece.newLine]

theorem VirtualAreas.ready_pieces (s : Settings) {d : Device} (h : d.Formattable) :
    ∀ p ∈ VirtualAreas.header d :: d.areas.flatMap (VirtualAreas.row s), p.Ready := by
  intro p hp
  rcases List.mem_cons.mp hp with rfl | hp
  · exact ready_header h
  · obtain ⟨e, he, hrow⟩ := List.mem_flatMap.mp hp
    exact ready_row s (h.areas e he) p hrow

theorem BufferPool.ready_indicesFrom (s : Settings) (buffers : List Number) (i : Nat) :
    ∀ p ∈ BufferPool.indicesFrom s i buffers, p.Ready := by
  induction buffers generalizing i with
  | nil => simp [indicesFrom]
  | cons list rest ih =>
    have hentry : (Piece.joined [" ", Column.decimal list 0]).Ready := Piece.ready_joined (by simp)
    rw [indicesFrom]
    split <;> simpa [hentry, Piece.newLine] using ih (i + 1)

theorem BufferPool.ready_pieces (s : Settings) (pool : DmaPool) :
    ∀ p ∈ BufferPool.pieces s pool, p.Ready := by
  have hrow (c : Nat × BufferClass) : (row s c.1 c.2).Ready := Piece.ready_joined (by simp)
  have hindices := ready_indicesFrom s pool.buffers 0
  intro p hp
  simp only [pieces, List.mem_append, List.mem_cons, List.mem_map, List.not_mem_nil, or_false] at hp
  rcases hp with ((rfl | ⟨c, -, rfl⟩) | rfl | hp) | rfl
  · exact Piece.ready_ok _
  · exact hrow c
  · exact Piece.ready_ok _
  · exact hindices p hp
  · exact Piece.ready_ok _

theorem Accounting.ready_pieces (s : Settings) (d : Device) (status : MemoryStatus) :
    ∀ p ∈ Accounting.pieces s d status, p.Ready := by
  have hfences : (fenceLine d.fenceManager).Ready := by
    rw [fenceLine]
    split <;> exact Piece.ready_ok _
  have hlocked : (lockedPagesLine d.bufferManager).Ready := by
    rw [lockedPagesLine]
    split <;> exact Piece.ready_ok _
  have hbuffers : ∀ p ∈ bufferLines d.bufferManager, p.Ready := by
    rw [bufferLines]
    split <;> simp
  have hobjects : ∀ p ∈ objectPieces d, p.Ready := by
    simpa [objectPieces, title, Piece.newLine, hfences, or_imp, forall_and] using hbuffers
  have hmemory : ∀ p ∈ memoryPieces s d status, p.Ready := by
    simp [memoryPieces, title, Piece.newLine, hlocked]
  have hthresholds : ∀ p ∈ thresholdPieces s status, p.Ready := by
    simp [thresholdPieces, Piece.newLine]
  intro p hp
  rcases List.mem_append.mp hp with hp | hp
  · exact (List.mem_append.mp hp).elim (hobjects p) (hmemory p)
  · exact hthresholds p hp

/-- A built-in report is a list of pieces, or asks the memory controller first, or looks at its
buffer. -/
theorem builtin_cases {r : Report} (h : r ∈ builtin true) :
    (∃ pieces, r.Lists pieces ∧ ∀ s d, d.Formattable → ∀ p ∈ pieces s d, p.Ready) ∨
      r = Accounting.report ∨ r = NamedObjects.report := by
  simp only [builtin, core, debugging, if_true, List.mem_append, List.mem_cons, List.not_mem_nil,
    or_false] at h
  rcases h with (rfl | rfl | rfl | rfl | rfl | rfl | rfl | rfl | rfl) | rfl
  · exact Or.inl ⟨_, lists_ofPieces _ _ _, fun s d _ => by simp⟩
  · exact Or.inl ⟨_, lists_ofPieces _ _ _, fun s d _ => MemoryAreas.ready_pieces s d.memoryTracker⟩
  · exact Or.inl ⟨_, lists_ofPieces _ _ _, fun s d hd => Mappings.ready_pieces hd⟩
  · exact Or.inl ⟨_, lists_ofPieces _ _ _, fun s d _ => Clients.ready_pieces d.clients⟩
  · exact Or.inl ⟨_, Queues.lists, fun s d hd => Queues.ready_pieces hd⟩
  · refine Or.inl ⟨_, lists_ofPieces _ _ _, fun s d _ => ?_⟩
    rcases d.dma with _ | pool
    · simp
    · exact BufferPool.ready_pieces s pool
  · exact Or.inr (Or.inl rfl)
  · exact Or.inr (Or.inr rfl)
  · refine Or.inl ⟨_, lists_ofPieces _ _ _, fun s d _ => ?_⟩
    simp [ObjectTotals.pieces, ObjectTotals.line]
  · exact Or.inl ⟨_, lists_ofPieces _ _ _, fun s d hd => VirtualAreas.ready_pieces s hd⟩

/-- A report whose generation only prints into its buffer. -/
def Prints (r : Report) : Prop := ∀ s, Rendering.Prints (r.generate s)

theorem prints_ofPieces (name : String) (requiresLock : Bool)
    (pieces : Settings → Device → List Piece) : (ofPieces name requiresLock pieces).Prints :=
  fun s => Rendering.prints_state.bind fun d => Rendering.prints_printEach (pieces s d)

theorem Queues.prints_printRows (positions : List Nat) :
    Rendering.Prints (printRows positions) := by
  have hrow (i : Nat) : Rendering.Prints (printRow i) := by
    refine Rendering.prints_state.bind fun d => ?_
    split
    · exact Rendering.prints_piece _
    · exact Rendering.prints_pure ()
  induction positions with
  | nil => exact Rendering.prints_pure ()
  | cons i rest ih =>
    refine Rendering.Prints.bind ?_ fun _ => ih
    exact (Rendering.prints_onState _).bind fun _ => (hrow i).always (Rendering.prints_onState _)

theorem NamedObjects.prints_printRows (objects : List NamedObject) :
    Rendering.Prints (printRows objects) := by
  induction objects with
  | nil => exact Rendering.prints_pure ()
  | cons o rest ih =>
    refine Rendering.prints_output.bind fun out => ?_
    split
    · exact ih
    · exact (Rendering.prints_piece _).bind fun _ => ih

/-- However a generation ends, its buffer was only printed into. -/
theorem builtin_prints {r : Report} (h : r ∈ builtin true) : r.Prints := by
  simp only [builtin, core, debugging, if_true, List.mem_append, List.mem_cons, List.not_mem_nil,
    or_false] at h
  rcases h with (rfl | rfl | rfl | rfl | rfl | rfl | rfl | rfl | rfl) | rfl
  case inl.inr.inr.inr.inr.inl =>
    exact fun _ => (Rendering.prints_piece _).bind fun _ =>
      Rendering.prints_state.bind fun _ => Queues.prints_printRows _
  case inl.inr.inr.inr.inr.inr.inr.inl =>
    exact fun _ => (Rendering.prints_onState _).bind fun _ =>
      Rendering.prints_state.bind fun _ => Rendering.prints_printEach _
  case inl.inr.inr.inr.inr.inr.inr.inr.inl =>
    exact fun _ => (Rendering.prints_piece _).bind fun _ =>
      Rendering.prints_state.bind fun _ => NamedObjects.prints_printRows _
  all_goals exact prints_ofPieces _ _ _

end Report

/-! ### Memory controllers -/

/-- A memory controller whose query has no side effect: it ends, with an answer or with a failure,
and leaves the controller and the device as they were. -/
structure MemoryControl.Steady (c : MemoryControl) : Prop where
  keeps : ∀ memory state, (c.query.outcome (memory, state)).2 = (memory, state)
  ends : ∀ memory state, (c.query.outcome (memory, state)).1 ≠ .error .endless

/-- A memory controller that answers every query. -/
def MemoryControl.Answering (c : MemoryControl) : Prop :=
  ∀ memory state, ∃ status, (c.query.outcome (memory, state)).1 = .ok status

theorem MemoryControl.steady_constant (status : MemoryStatus) : (constant status).Steady :=
  ⟨fun _ _ => rfl, fun _ _ => nofun⟩

theorem MemoryControl.answering_constant (status : MemoryStatus) : (constant status).Answering :=
  fun _ _ => ⟨status, rfl⟩

namespace Report

theorem Accounting.queried_of_steady {d : Device} (steady : d.memoryControl.Steady) :
    queried d = d := by
  have hkeeps := steady.keeps d.memoryControl.memory d.toDeviceState
  rw [queried, query, Effect.outcome_bind_ok (Effect.outcome_get d), Effect.outcome_focus, hkeeps]

theorem Accounting.generate_constant (s : Settings) {d : Device} {status : MemoryStatus}
    (constant : d.memoryControl = .constant status) {out : ReportBuffer} (sound : out.Sound) :
    (Accounting.report.generate s).outcome (d, out) = (Piece.ending (Accounting.pieces s d status),
      (d, out.printAll (Piece.texts (Accounting.pieces s d status)))) := by
  have hsteady : d.memoryControl.Steady := constant ▸ MemoryControl.steady_constant status
  have hanswer : (Accounting.query.outcome d).1 = .ok status := by
    change (d.memoryControl.query.outcome (d.memoryControl.memory, d.toDeviceState)).1 = _
    rw [constant]
    rfl
  have hrun := Accounting.generate_answered s hanswer sound
  rwa [Accounting.queried_of_steady hsteady] at hrun

/-- Generating a built-in report prints texts and leaves the device as it was. It fails at most in
formatting or in asking the memory controller. -/
theorem builtin_generates {r : Report} (h : r ∈ builtin true) (s : Settings) {d : Device}
    (steady : d.memoryControl.Steady) {out : ReportBuffer} (sound : out.Sound) :
    ∃ e ts, (r.generate s).outcome (d, out) = (e, (d, out.printAll ts)) ∧ e ≠ .error .endless ∧
      (d.Formattable → d.memoryControl.Answering → e = .ok ()) := by
  rcases builtin_cases h with ⟨pieces, hlists, hready⟩ | rfl | rfl
  · exact ⟨_, _, hlists s d out sound, Piece.ending_ne_endless _,
      fun hd _ => Piece.ending_of_ready (hready s d hd)⟩
  · have hqueried := Accounting.queried_of_steady steady
    have hends : (Accounting.query.outcome d).1 ≠ .error .endless := steady.ends _ _
    rcases hquery : (Accounting.query.outcome d).1 with stop | status
    · have hrun := Accounting.generate_unanswered s hquery out
      rw [hqueried] at hrun
      have hstop : (.error stop : Except Stop Unit) ≠ .error .endless := by
        rintro ⟨⟩
        exact hends hquery
      refine ⟨_, [], hrun, hstop, fun _ answering => ?_⟩
      obtain ⟨status, hstatus⟩ := answering d.memoryControl.memory d.toDeviceState
      cases hquery.symm.trans hstatus
    · have hrun := Accounting.generate_answered s hquery sound
      rw [hqueried] at hrun
      exact ⟨_, _, hrun, Piece.ending_ne_endless _,
        fun _ _ => Piece.ending_of_ready (Accounting.ready_pieces _ _ _)⟩
  · exact ⟨_, _, NamedObjects.outcome_generate s d sound, nofun, fun _ _ => rfl⟩

/-! ### Under the lock -/

theorem Prints.rendering {r : Report} (prints : r.Prints) (s : Settings) :
    Rendering.Prints (r.rendering s) := by
  have hapart (st : Device × ReportBuffer) (word : Int32) : (putLockWord st word).2 = st.2 := rfl
  rw [Report.rendering]
  split
  · refine Rendering.prints_state.bind fun d => ?_
    exact (prints s).exclusive hapart d.lock.patience
  · exact prints s

theorem rendering_unlocked {r : Report} (unlocked : r.requiresLock = false) (s : Settings) :
    r.rendering s = r.generate s := by
  rw [rendering, unlocked, if_neg Bool.false_ne_true]

theorem rendering_locked {r : Report} (locked : r.requiresLock = true) (s : Settings) (d : Device)
    (out : ReportBuffer) :
    (r.rendering s).outcome (d, out) =
      (Process.exclusive lockWord putLockWord d.lock.patience (r.generate s)).outcome (d, out) := by
  rw [rendering, locked, if_pos rfl, Effect.outcome_bind_ok (Rendering.outcome_state d out)]

/-- A report that wants the lock and finds it held waits in vain, and does nothing else. -/
theorem rendering_held {r : Report} (locked : r.requiresLock = true) (s : Settings) {d : Device}
    (held : d.lockWord ≠ Lock.free) {threshold : Rat}
    (finite : d.lock.patience.panicThreshold = .finite threshold) (out : ReportBuffer) :
    (r.rendering s).outcome (d, out) = (.error (Lock.inVain threshold), (d, out)) := by
  have hheld : lockWord (d, out) ≠ Lock.free := held
  rw [rendering_locked locked]
  exact Process.exclusive_held hheld finite rfl (r.generate s)

/-- A report that wants the lock and finds it free is generated with the lock held. -/
theorem rendering_free {r : Report} (locked : r.requiresLock = true) (s : Settings) {d : Device}
    (free : d.lockWord = Lock.free) {out printed : ReportBuffer} {e : Except Stop Unit}
    (ends : e ≠ .error .endless)
    (generated : (r.generate s).outcome (d.putLockWord Lock.held, out) =
      (e, (d.putLockWord Lock.held, printed))) :
    (r.rendering s).outcome (d, out) = (e, (d, printed)) := by
  have hfree : lockWord (d, out) = Lock.free := free
  have hrestored : (d.putLockWord Lock.held).putLockWord Lock.free = d := by
    rw [← free]
    rfl
  have hgenerated : (r.generate s).outcome (putLockWord (d, out) Lock.held) =
      (e, (d.putLockWord Lock.held, printed)) := generated
  rw [rendering_locked locked, Process.exclusive_free hfree]
  · rw [hgenerated, putLockWord, hrestored]
  · rw [hgenerated]
    exact ends
  · rw [hgenerated]
    rfl

/-- A report that lists pieces and finds the lock it wants free prints them, as they are with the
lock held, and gives the lock back. -/
theorem Lists.rendering_free {r : Report} {pieces : Settings → Device → List Piece}
    (lists : r.Lists pieces) (locked : r.requiresLock = true) (s : Settings) {d : Device}
    (free : d.lockWord = Lock.free) {out : ReportBuffer} (sound : out.Sound) :
    (r.rendering s).outcome (d, out) =
      (Piece.ending (pieces s (d.putLockWord Lock.held)),
        (d, out.printAll (Piece.texts (pieces s (d.putLockWord Lock.held))))) :=
  Report.rendering_free locked s free (Piece.ending_ne_endless _)
    (lists s (d.putLockWord Lock.held) out sound)

/-- Where the lock is free or not wanted, a built-in report is generated, and the device is what it
was. -/
theorem rendering_generates {r : Report} (h : r ∈ builtin true) (s : Settings) {d : Device}
    (steady : d.memoryControl.Steady) (admitted : r.requiresLock = true → d.lockWord = Lock.free)
    {out : ReportBuffer} (sound : out.Sound) :
    ∃ e ts, (r.rendering s).outcome (d, out) = (e, (d, out.printAll ts)) ∧ e ≠ .error .endless ∧
      (d.Formattable → d.memoryControl.Answering → e = .ok ()) := by
  rcases hlock : r.requiresLock with _ | _
  · rw [rendering_unlocked hlock]
    exact builtin_generates h s steady sound
  · have hsteady : (d.putLockWord Lock.held).memoryControl.Steady := steady
    obtain ⟨e, ts, hgenerate, hends, hready⟩ := builtin_generates h s hsteady sound
    refine ⟨e, ts, rendering_free hlock s (admitted hlock) hends hgenerate, hends, fun hd => ?_⟩
    exact hready ⟨hd.tokens, hd.mappings, hd.queues, hd.areas, hd.highMemory⟩

end Report

end DeviceReports
