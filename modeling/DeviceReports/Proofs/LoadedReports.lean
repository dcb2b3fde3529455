import DeviceReports.Proofs.CarriedDevices
import DeviceReports.Proofs.Sessions

/-!
# Reports of a loaded device

Nothing else runs on a device that has just been loaded: its lock is free, its memory controller
answers every query alike, and all its figures have texts. So each of its reports is rendered in
full, the device is left as it was, and every read of a report is answered from one content.
-/

set_option autoImplicit false

namespace DeviceReports

open Text (Bytes)

variable {σ τ δ : Type}

namespace Reader

/-- What answers from one content still does so as part of a larger state. -/
theorem Answers.within {r : Reader σ} {view : τ → σ} {put : τ → σ → τ} {t : τ} {sizeLimit : Nat}
    {content : Bytes} (answers : r.Answers (view t) sizeLimit content)
    (same : put t (view t) = t) : (r.within view put).Answers t sizeLimit content := by
  intro offset length ho hl
  have hread := answers offset length ho hl
  rw [Reader.within, Effect.outcome_focus, hread, same]

end Reader

/-- A rendering that leaves the state alone answers every read from what it prints. -/
theorem Reading.answers_of_rendered {render : Rendering σ Unit} {sizeLimit capacity : Nat} {s : σ}
    {ts : List Text}
    (rendered : render.into (Bounds.buffer sizeLimit capacity) s =
      (.ok (), s, (Bounds.buffer sizeLimit capacity).printAll ts)) :
    (reader (Bounds.ofCounts sizeLimit capacity) render).Answers s sizeLimit
      (Bounds.contentOf sizeLimit capacity ts) := by
  intro offset length ho hl
  by_cases hpast : sizeLimit < offset
  · rw [if_pos hpast]
    exact read_past render ho hl hpast s
  · rw [if_neg hpast]
    exact read_rendered ho hl (Nat.le_of_not_lt hpast) rendered

/-- A device whose figures all have texts, and whose memory controller answers every query alike. -/
structure Device.CanBeShown (d : Device) : Prop where
  formattable : d.Formattable
  constant : ∃ status, d.memoryControl = .constant status

namespace Device.CanBeShown

variable {d : Device}

theorem steady (shown : d.CanBeShown) : d.memoryControl.Steady := by
  obtain ⟨status, hconstant⟩ := shown.constant
  exact hconstant ▸ MemoryControl.steady_constant status

theorem answering (shown : d.CanBeShown) : d.memoryControl.Answering := by
  obtain ⟨status, hconstant⟩ := shown.constant
  exact hconstant ▸ MemoryControl.answering_constant status

end Device.CanBeShown

/-- A device that can be shown and that nothing else runs on. -/
structure Device.Quiet (d : Device) : Prop extends d.CanBeShown where
  unlocked : d.lockWord = Lock.free

namespace Device.Quiet

variable {d : Device}

/-- A built-in report of a quiet device is rendered in full, and the device is left as it was. -/
theorem rendering (quiet : d.Quiet) {r : Report} (h : r ∈ Report.builtin true) (s : Settings)
    {out : ReportBuffer} (sound : out.Sound) :
    ∃ ts, (r.rendering s).outcome (d, out) = (.ok (), (d, out.printAll ts)) := by
  obtain ⟨e, ts, hrun, -, hready⟩ :=
    Report.rendering_generates h s quiet.steady (fun _ => quiet.unlocked) sound
  refine ⟨ts, ?_⟩
  rw [hrun, hready quiet.formattable quiet.answering]

/-- A built-in report of a quiet device drains to some bytes in steps of any size, and the device
is left as it was. -/
theorem drain (quiet : d.Quiet) {r : Report} (h : r ∈ Report.builtin true) {s : Settings}
    {limit capacity : Nat} (bounds : s.bounds = Bounds.ofCounts limit capacity) {c : Nat}
    (pos : 1 ≤ c) (exact : c < Number.exactBound) :
    ∃ bytes, ∀ (view : τ → Device) (put : τ → Device → τ) (t : τ), view t = d → put t d = t →
      ((((Reading.reader s.bounds (r.rendering s)).within view put).drain (.ofCount c)).outcome t) =
        (.ok bytes, t) := by
  obtain ⟨ts, hrun⟩ := quiet.rendering h s (Bounds.sound_buffer limit capacity)
  have hlength := Bounds.contentOf_length_le limit capacity ts
  refine ⟨(Bounds.contentOf limit capacity ts).take (c * (limit / c + 1)), ?_⟩
  intro view put t hview hput
  have hanswers : (Reading.reader s.bounds (r.rendering s)).Answers (view t) limit
      (Bounds.contentOf limit capacity ts) := by
    rw [bounds, hview]
    exact Reading.answers_of_rendered hrun
  have hspan : ((Reading.reader s.bounds (r.rendering s)).within view put).span =
      min capacity ReportBuffer.mostBytes := by
    rw [bounds]
    exact ReportBuffer.capacityOf_ofCount capacity
  refine Reader.drain_of_answers (hanswers.within ?_) ?_ ?_ pos exact
  · rw [hview, hput]
  · exact hlength.trans (Nat.min_le_right _ _)
  · rw [hspan]
    exact hlength

end Device.Quiet

/-- A device is quiet when it has just been loaded. -/
theorem Snapshot.quiet_of_load {document : Value} {source : String} {d : Device}
    (loaded : load document source = .ok d) : d.Quiet := by
  obtain ⟨hconforms, hd⟩ := load_eq_ok.mp loaded
  have hcarried := device_carried hconforms
  rw [← hd] at hcarried
  obtain ⟨status, -, hcontrol⟩ := hcarried.memoryControl
  refine ⟨⟨formattable_of_load loaded, status, hcontrol⟩, ?_⟩
  rw [Device.lockWord, hcarried.lock]
  rfl

end DeviceReports
