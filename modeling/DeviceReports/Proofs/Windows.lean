import DeviceReports.Proofs.AnyCapacity

/-!
# Windows of rendered reports

One read within natural bounds: past the size limit it renders nothing and ends; otherwise it
renders into a fresh buffer and answers a window of the content, and it ends exactly when no
content lies behind that window. Sums of offset and length may leave the exact range; the
content never does.
-/

set_option autoImplicit false

namespace DeviceReports

open Text (Bytes)

variable {σ : Type}

/-- The part of a content from an offset on, and whether it reaches the end. -/
def Chunk.ofContent (content : Bytes) (offset length : Nat) : Chunk :=
  ⟨content.extract offset (offset + length), decide (content.length ≤ offset + length)⟩

theorem ReportBuffer.Sound.window_ofCount {b : ReportBuffer} (sound : b.Sound)
    (small : b.admitted ≤ mostBytes) (whole : b.length = .ofCount b.size) (offset length : Nat) :
    b.window (.ofCount offset) (.ofCount length) =
      Chunk.ofContent b.content.toList offset length := by
  have hexact : b.size ≤ Number.exactBound := by
    have hsize := sound.size_le
    unfold mostBytes at small
    omega
  have hends : (!decide (Number.ofCount offset + .ofCount length < .ofCount b.size)) =
      decide (b.size ≤ offset + length) := by
    rw [← decide_not, decide_eq_decide, Number.ofCount_add_lt_iff hexact, Nat.not_lt]
  rw [sound.window small, Chunk.ofContent, b.length_content, whole, hends]

/-- The bounds that two natural numbers give. -/
def Bounds.ofCounts (sizeLimit capacity : Nat) : Bounds := ⟨.ofCount sizeLimit, .ofCount capacity⟩

/-- The empty buffer of a rendering within natural bounds. -/
def Bounds.buffer (sizeLimit capacity : Nat) : ReportBuffer :=
  .new (.ofCount sizeLimit) (min capacity ReportBuffer.mostBytes)

/-- The content that prints leave in the buffer of a rendering. -/
def Bounds.contentOf (sizeLimit capacity : Nat) (ts : List Text) : Bytes :=
  ((Bounds.buffer sizeLimit capacity).printAll ts).content.toList

theorem Bounds.contentOf_length_le (sizeLimit capacity : Nat) (ts : List Text) :
    (Bounds.contentOf sizeLimit capacity ts).length ≤ min capacity ReportBuffer.mostBytes := by
  rw [Bounds.contentOf, Bounds.buffer, ReportBuffer.printAll_new, ReportBuffer.content_holding]
  exact List.length_take_le _ _

theorem Bounds.sound_buffer (sizeLimit capacity : Nat) : (Bounds.buffer sizeLimit capacity).Sound :=
  ReportBuffer.sound_new _ _

theorem Bounds.window_printAll (sizeLimit capacity : Nat) (ts : List Text) (offset length : Nat) :
    ((Bounds.buffer sizeLimit capacity).printAll ts).window (.ofCount offset) (.ofCount length) =
      Chunk.ofContent (Bounds.contentOf sizeLimit capacity ts) offset length := by
  have hsound := (Bounds.sound_buffer sizeLimit capacity).printAll ts
  have hadmitted : ((Bounds.buffer sizeLimit capacity).printAll ts).admitted =
      min capacity ReportBuffer.mostBytes := by
    refine ReportBuffer.admitted_of_whole ?_
    rw [((Bounds.sound_buffer sizeLimit capacity).bounds_printAll ts).2]
    exact Number.whole?_ofCount _
  have hwhole : ((Bounds.buffer sizeLimit capacity).printAll ts).length =
      .ofCount ((Bounds.buffer sizeLimit capacity).printAll ts).size := by
    rw [Bounds.buffer, ReportBuffer.printAll_new, ReportBuffer.length_holding]
  exact hsound.window_ofCount (hadmitted ▸ Nat.min_le_right _ _) hwhole offset length

namespace Rendering

theorem outcome_print (t : Text) (s : σ) {out : ReportBuffer} (sound : out.Sound) :
    (print t : Rendering σ Unit).outcome (s, out) = (.ok (), (s, out.printed t)) := by
  rw [print, Effect.outcome_focus, sound.outcome_print]

/-- Texts printed one by one are printed one after the other into the buffer. -/
theorem outcome_printEach (ts : List Text) (s : σ) {out : ReportBuffer} (sound : out.Sound) :
    (printEach (ts.map Except.ok) : Rendering σ Unit).outcome (s, out) =
      (.ok (), (s, out.printAll ts)) := by
  induction ts generalizing out with
  | nil => rfl
  | cons t rest ih =>
    have hpiece : (piece (.ok t) : Rendering σ Unit).outcome (s, out) =
        (.ok (), (s, out.printed t)) := by
      rw [piece, Effect.outcome_bind_ok (Process.outcome_ok t _), outcome_print t s sound]
    rw [List.map_cons, printEach, Effect.outcome_bind_ok hpiece, ih (sound.printed t)]
    rfl

end Rendering

namespace Reading

theorem checkRange_ofCount {offset length : Nat} (ho : offset < Number.exactBound)
    (hl : length < Number.exactBound) :
    checkRange (.ofCount offset) (.ofCount length) = .ok () := by
  rw [checkRange, Number.count?_ofCount ho, Number.count?_ofCount hl]
  rfl

theorem read_past (render : Rendering σ Unit) {sizeLimit capacity offset length : Nat}
    (ho : offset < Number.exactBound) (hl : length < Number.exactBound)
    (past : sizeLimit < offset) (s : σ) :
    (read (Bounds.ofCounts sizeLimit capacity) render (.ofCount offset) (.ofCount length)).outcome s
      = (.ok .ending, s) := by
  rw [read, checkRange_ofCount ho hl, Effect.outcome_bind_ok (Process.outcome_ok _ _)]
  rw [if_pos (show (Bounds.ofCounts sizeLimit capacity).sizeLimit < Number.ofCount offset from
    Number.ofCount_lt_ofCount.mpr past)]
  rfl

theorem fresh_ofCounts (render : Rendering σ Unit) (sizeLimit capacity : Nat) (s : σ) :
    (Rendering.fresh (Bounds.ofCounts sizeLimit capacity) render).outcome s =
      match render.into (Bounds.buffer sizeLimit capacity) s with
      | (.ok (), t, out) => (.ok out, t)
      | (.error e, t, _) => (.error e, t) := by
  rw [Rendering.fresh, Bounds.ofCounts, ReportBuffer.create_ofCount,
    Effect.outcome_bind_ok (Process.outcome_ok _ _)]
  rfl

theorem read_rendered {render : Rendering σ Unit} {sizeLimit capacity offset length : Nat}
    (ho : offset < Number.exactBound) (hl : length < Number.exactBound)
    (within : offset ≤ sizeLimit) {s t : σ} {ts : List Text}
    (rendered : render.into (Bounds.buffer sizeLimit capacity) s =
      (.ok (), t, (Bounds.buffer sizeLimit capacity).printAll ts)) :
    (read (Bounds.ofCounts sizeLimit capacity) render (.ofCount offset) (.ofCount length)).outcome s
      = (.ok (Chunk.ofContent (Bounds.contentOf sizeLimit capacity ts) offset length), t) := by
  have hlimit : ¬ (Bounds.ofCounts sizeLimit capacity).sizeLimit < Number.ofCount offset :=
    mt Number.ofCount_lt_ofCount.mp (by omega)
  have hfresh : (Rendering.fresh (Bounds.ofCounts sizeLimit capacity) render).outcome s =
      (.ok ((Bounds.buffer sizeLimit capacity).printAll ts), t) := by
    rw [fresh_ofCounts, rendered]
  rw [read, checkRange_ofCount ho hl, Effect.outcome_bind_ok (Process.outcome_ok _ _),
    if_neg hlimit, Effect.outcome_bind_ok hfresh, Effect.outcome_pure, Bounds.window_printAll]

/-- A read stops as its rendering does. -/
theorem read_failed {render : Rendering σ Unit} {sizeLimit capacity offset length : Nat}
    (ho : offset < Number.exactBound) (hl : length < Number.exactBound)
    (within : offset ≤ sizeLimit) {s t : σ} {e : Stop} {out : ReportBuffer}
    (failed : render.into (Bounds.buffer sizeLimit capacity) s = (.error e, t, out)) :
    (read (Bounds.ofCounts sizeLimit capacity) render (.ofCount offset) (.ofCount length)).outcome s
      = (.error e, t) := by
  have hlimit : ¬ (Bounds.ofCounts sizeLimit capacity).sizeLimit < Number.ofCount offset :=
    mt Number.ofCount_lt_ofCount.mp (by omega)
  have hfresh : (Rendering.fresh (Bounds.ofCounts sizeLimit capacity) render).outcome s =
      (.error e, t) := by
    rw [fresh_ofCounts, failed]
  rw [read, checkRange_ofCount ho hl, Effect.outcome_bind_ok (Process.outcome_ok _ _),
    if_neg hlimit, Effect.outcome_bind_error hfresh]

end Reading

end DeviceReports
