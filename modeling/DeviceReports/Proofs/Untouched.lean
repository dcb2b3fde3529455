import DeviceReports.Device.Sample
import DeviceReports.Diagnostics
import DeviceReports.Proofs.AcceptedSettings
import DeviceReports.Proofs.Formatting

/-!
# Reading leaves the device as it was

A rendering takes the lock and pins queues, but what it takes it gives back on every way out:
the lock word and the use counts return to where they stood, at the ends of their range too.
The one thing that a report may move on for good is a memory controller with side effects; one
whose query changes nothing, whether it answers or fails, is what the statements ask for. Reading
goes on without end only where it waits for a held lock that is never given up; there the device
stands as it was as well.
-/

set_option autoImplicit false

namespace DeviceReports

variable {σ α β δ : Type} {waits : Prop}

namespace Process

/-- A process that leaves a state as it is, however it ends there, and that does end there unless
it waits. -/
structure Leaves (waits : Prop) (act : Process σ α) (s : σ) : Prop where
  state : (act.outcome s).2 = s
  ends : (act.outcome s).1 = .error .endless → waits

theorem leaves_pure (a : α) (s : σ) : Leaves waits (pure a : Process σ α) s := ⟨rfl, nofun⟩

theorem leaves_fail (e : Failure) (s : σ) : Leaves waits (fail e : Process σ α) s := ⟨rfl, nofun⟩

theorem leaves_ofExcept (r : Except Failure α) (s : σ) : Leaves waits (ofExcept r) s := by
  refine ⟨rfl, fun h => ?_⟩
  cases r <;> cases h

theorem Leaves.bind {x : Process σ α} {f : α → Process σ β} {s : σ} (first : x.Leaves waits s)
    (next : ∀ a, (f a).Leaves waits s) : Leaves waits (x >>= f) s := by
  have hstate := first.state
  rcases hrun : x.outcome s with ⟨e | a, t⟩ <;> rw [hrun] at hstate <;> dsimp only at hstate <;>
    subst hstate
  · refine ⟨by rw [Effect.outcome_bind_error hrun], fun h => ?_⟩
    rw [Effect.outcome_bind_error hrun] at h
    cases h
    exact first.ends (by rw [hrun])
  · refine ⟨?_, fun h => ?_⟩
    · rw [Effect.outcome_bind_ok hrun]
      exact (next a).state
    · rw [Effect.outcome_bind_ok hrun] at h
      exact (next a).ends h

end Process

/-- From a state, a rendering into any sound buffer leaves the state as it is, and ends unless it
waits. -/
def Rendering.LeavesState (waits : Prop) (render : Rendering σ α) (s : σ) : Prop :=
  ∀ out : ReportBuffer, out.Sound →
    (render.outcome (s, out)).2.1 = s ∧ ((render.outcome (s, out)).1 = .error .endless → waits)

theorem Rendering.fresh_leaves {render : Rendering σ Unit} {s : σ}
    (h : render.LeavesState waits s) (sizeLimit capacity : Nat) :
    (Rendering.fresh (Bounds.ofCounts sizeLimit capacity) render).Leaves waits s := by
  have hfresh := Reading.fresh_ofCounts render sizeLimit capacity s
  obtain ⟨hstate, hends⟩ := h _ (Bounds.sound_buffer sizeLimit capacity)
  rw [Rendering.into] at hfresh
  rcases hrun : render.outcome (s, Bounds.buffer sizeLimit capacity) with ⟨e | done, t, printed⟩ <;>
    rw [hrun] at hfresh hstate hends <;> dsimp only at hstate hends
  · refine ⟨by rw [hfresh, hstate], fun hendless => ?_⟩
    rw [hfresh] at hendless
    cases hendless
    exact hends rfl
  · refine ⟨by rw [hfresh, hstate], fun hendless => ?_⟩
    rw [hfresh] at hendless
    cases hendless

theorem Reading.read_leaves {render : Rendering σ Unit} {s : σ} (h : render.LeavesState waits s)
    (sizeLimit capacity : Nat) (offset length : Number) :
    (Reading.read (Bounds.ofCounts sizeLimit capacity) render offset length).Leaves waits s := by
  refine (Process.leaves_ofExcept _ s).bind fun _ => ?_
  split
  · exact Process.leaves_pure _ s
  · exact (Rendering.fresh_leaves h _ _).bind fun _ => Process.leaves_pure _ s

namespace Reader

variable {r : Reader σ} {s : σ}

theorem drainFrom_leaves (h : ∀ offset length, (r.read offset length).Leaves waits s)
    (size fuel offset : Nat) : (r.drainFrom size fuel offset).Leaves waits s := by
  induction fuel generalizing offset with
  | zero => exact Process.leaves_pure _ s
  | succ fuel ih =>
    refine (h _ _).bind fun chunk => ?_
    split
    · exact Process.leaves_pure _ s
    · exact (ih _).bind fun _ => Process.leaves_pure _ s

theorem drain_leaves (h : ∀ offset length, (r.read offset length).Leaves waits s)
    (chunkSize : Number) : (r.drain chunkSize).Leaves waits s := by
  rw [drain]
  split
  · exact drainFrom_leaves h _ _ _
  · exact Process.leaves_fail _ s

end Reader

/-- A rendering may have to wait for the lock without end: another holds it, and the threshold lies
past every count of tries. -/
def Device.WaitsForGood (d : Device) (threshold : Rat) : Prop :=
  d.lockWord ≠ Lock.free ∧ ¬ threshold ≤ Number.exactBound

theorem Report.rendering_leaves {r : Report} (h : r ∈ Report.builtin true) (s : Settings)
    {d : Device} (steady : d.memoryControl.Steady) {threshold : Rat}
    (finite : d.lock.patience.panicThreshold = .finite threshold) :
    (r.rendering s).LeavesState (d.WaitsForGood threshold) d := by
  intro out sound
  by_cases hadmitted : r.requiresLock = true → d.lockWord = Lock.free
  · obtain ⟨e, ts, hrun, hends, -⟩ := rendering_generates h s steady hadmitted sound
    rw [hrun]
    exact ⟨rfl, fun hendless => absurd hendless hends⟩
  · obtain ⟨hlock, hheld⟩ := Classical.not_imp.mp hadmitted
    rw [rendering_held hlock s hheld finite]
    refine ⟨rfl, fun hendless => ⟨hheld, fun hreached => ?_⟩⟩
    rw [Lock.inVain_of_le hreached] at hendless
    cases hendless

namespace Diagnostics

variable {m : Diagnostics δ} {d : Device}

/-- A report is found under its name, or no report has the name. -/
theorem report_cases (m : Diagnostics δ) (name : String) :
    (∃ r ∈ m.reports, r.name = name ∧ m.report name = .ok r) ∨
      (name ∉ m.names ∧ m.report name = .error (.reportNotFound name m.label)) := by
  rcases hfind : m.reports.find? (·.name == name) with _ | r <;> rw [report, hfind]
  · refine Or.inr ⟨fun hname => ?_, rfl⟩
    obtain ⟨r, hr, hsame⟩ := List.mem_map.mp hname
    exact List.find?_eq_none.mp hfind r hr (beq_iff_eq.mpr hsame)
  · exact Or.inl ⟨r, List.mem_of_find?_eq_some hfind, by simpa using List.find?_some hfind, rfl⟩

/-- What is read through a report that is found, or the failure to find it. -/
theorem reader_cases (m : Diagnostics δ) (name : String) :
    (∃ r ∈ m.reports, r.name = name ∧
      m.reader name = .ok (Reading.reader m.settings.bounds (r.rendering m.settings))) ∨
      (name ∉ m.names ∧ m.reader name = .error (.reportNotFound name m.label)) := by
  rcases report_cases m name with ⟨r, hr, hname, hreport⟩ | ⟨hname, hreport⟩
  · exact Or.inl ⟨r, hr, hname, by rw [reader, hreport]; rfl⟩
  · exact Or.inr ⟨hname, by rw [reader, hreport]; rfl⟩

section Leaves

variable {limit capacity : Nat} (bounds : m.settings.bounds = Bounds.ofCounts limit capacity)
  (h : ∀ r ∈ m.reports, (r.rendering m.settings).LeavesState waits d)

include bounds h

/-- Reading through a report leaves the device alone where rendering the report does. -/
theorem leaves_of_reader {use : Reader Device → Process Device α}
    (leaves : ∀ r, (∀ offset length, (r.read offset length).Leaves waits d) →
      (use r).Leaves waits d)
    (name : String) : (Process.ofExcept (m.reader name) >>= use).Leaves waits d := by
  rcases reader_cases m name with ⟨r, hr, -, hreader⟩ | ⟨-, hreader⟩ <;> rw [hreader]
  · have huse :
        (use (Reading.reader m.settings.bounds (r.rendering m.settings))).Leaves waits d := by
      rw [bounds]
      exact leaves _ fun offset length => Reading.read_leaves (h r hr) _ _ offset length
    exact huse
  · exact Process.leaves_fail _ d

theorem openSession_leaves (name : String) : (m.openSession name).Leaves waits d := by
  rcases report_cases m name with ⟨r, hr, -, hreport⟩ | ⟨-, hreport⟩ <;> rw [openSession, hreport]
  · have hfresh : (Rendering.fresh m.settings.bounds (r.rendering m.settings)).Leaves waits d := by
      rw [bounds]
      exact Rendering.fresh_leaves (h r hr) _ _
    exact hfresh.bind fun _ => Process.leaves_pure _ d
  · exact Process.leaves_fail _ d

end Leaves

/-- Under resolved settings reads of every kind leave the device as it is, whatever they are asked
for and whether they return, fail or wait, and wherever in a rendering they fail. They return or
fail unless they wait for the lock for good. -/
theorem reads_leave_device (machine : String) (config : Value) (m : Diagnostics δ)
    (resolved : Settings.resolve machine config = .ok m.settings)
    (builtin : ∀ r ∈ m.reports, r ∈ Report.builtin true) (d : Device)
    (steady : d.memoryControl.Steady) (threshold : Rat)
    (finite : d.lock.patience.panicThreshold = .finite threshold) :
    (∀ name offset length,
      (m.read name offset length).Leaves (d.WaitsForGood threshold) d) ∧
      (∀ name chunkSize, (m.readAll name chunkSize).Leaves (d.WaitsForGood threshold) d) ∧
      ∀ name, (m.openSession name).Leaves (d.WaitsForGood threshold) d := by
  obtain ⟨limit, capacity, hbounds, -⟩ := Settings.bounds_of_resolve resolved
  have hrender : ∀ r ∈ m.reports,
      (r.rendering m.settings).LeavesState (d.WaitsForGood threshold) d :=
    fun r hr => Report.rendering_leaves (builtin r hr) m.settings steady finite
  refine ⟨?_, ?_, openSession_leaves hbounds hrender⟩
  · intro name offset length
    exact leaves_of_reader hbounds hrender (fun r hr => hr offset length) name
  · intro name chunkSize
    exact leaves_of_reader hbounds hrender (fun r hr => Reader.drain_leaves hr chunkSize) name

/-- A memory controller that fails every query. -/
def lost : MemoryControl := { query := Process.fail (.foreign "Error" "controller lost") }

theorem lost_steady : lost.Steady := ⟨fun _ _ => rfl, fun _ _ => nofun⟩

/-- Two queues, the second of which cannot be formatted while its use count stands at the end of
the range, and a memory controller that fails. -/
def jammed : Device :=
  { Sample.bare with
    queues := [JobQueue.ofValue .missing,
      { JobQueue.ofValue .missing with flags := .infinite true, useCount := ⟨Int32.maxValue⟩ }]
    lock := ⟨Lock.free, ⟨.nan, .finite 3⟩⟩
    memoryControl := lost }

/-- The diagnostics of a device with all built-in reports. -/
def complete : Diagnostics String where
  label := "0"
  settings := Settings.defaults
  reports := Report.builtin true
  names_nodup := by decide

/-- The rendering fails at the second row, with the lock taken and the queue pinned. -/
theorem jammed_queues {out : ReportBuffer} (sound : out.Sound) :
    ∃ after, (Report.Queues.report.rendering complete.settings).outcome (jammed, out) =
      (.error (.failed Column.noWord), after) := by
  have hending : Piece.ending (Report.Queues.pieces (jammed.putLockWord Lock.held)) =
      .error (.failed Column.noWord) := by
    obtain ⟨first, hfirst⟩ : ∃ t,
        Report.Queues.row 0 (Report.Queues.pin (JobQueue.ofValue .missing)) = .ok t := ⟨_, rfl⟩
    have hsecond : Report.Queues.row 1 (Report.Queues.pin
        { JobQueue.ofValue .missing with flags := .infinite true, useCount := ⟨Int32.maxValue⟩ }) =
          .error Column.noWord := rfl
    change Piece.ending [Report.Queues.header, Report.Queues.row 0 _, Report.Queues.row 1 _] = _
    rw [hfirst, hsecond]
    rfl
  have hrun := Report.Queues.lists.rendering_free rfl complete.settings (d := jammed) rfl sound
  rw [hending] at hrun
  exact ⟨_, hrun⟩

/-- The rendering fails with the lock taken, as its query of the controller does. -/
theorem jammed_objects (out : ReportBuffer) :
    (Report.Accounting.report.rendering complete.settings).outcome (jammed, out) =
      (.error (.failed (.foreign "Error" "controller lost")), (jammed, out)) :=
  Report.rendering_free rfl complete.settings rfl nofun
    (Report.Accounting.generate_unanswered complete.settings rfl out)

theorem read_jammed :
    Settings.resolve "x64" .missing = .ok complete.settings ∧
      (∀ r ∈ complete.reports, r ∈ Report.builtin true) ∧ jammed.memoryControl.Steady ∧
      jammed.lock.patience.panicThreshold = .finite 3 ∧
      (complete.read "queues" (.ofCount 0) (.ofCount 16)).outcome jammed =
        (.error (.failed Column.noWord), jammed) ∧
      (complete.read "objects" (.ofCount 0) (.ofCount 16)).outcome jammed =
        (.error (.failed (.foreign "Error" "controller lost")), jammed) := by
  have hexact : 0 < Number.exactBound ∧ 16 < Number.exactBound := by decide
  have hleaves := (reads_leave_device "x64" .missing complete Settings.resolve_missing
    (fun r hr => hr) jammed lost_steady 3 rfl).1
  refine ⟨Settings.resolve_missing, fun r hr => hr, lost_steady, rfl, Prod.ext ?_ ?_,
    Prod.ext ?_ ?_⟩
  · obtain ⟨after, hrender⟩ := jammed_queues (Bounds.sound_buffer 4016 4096)
    have hread := Reading.read_failed hexact.1 hexact.2 (Nat.zero_le 4016) hrender
    exact (congrArg Prod.fst hread :)
  · exact (hleaves _ _ _).state
  · have hrender := jammed_objects (Bounds.buffer 4016 4096)
    have hread := Reading.read_failed hexact.1 hexact.2 (Nat.zero_le 4016) hrender
    exact (congrArg Prod.fst hread :)
  · exact (hleaves _ _ _).state

end Diagnostics

end DeviceReports
