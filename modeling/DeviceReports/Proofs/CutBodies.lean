import DeviceReports.Device.Sample
import DeviceReports.Proofs.ReportLines

/-!
# Bodies cut at the capacity

All built-in reports but the one on named objects are rendered without a look at the buffer or at
the limits of the settings: what is printed, how it ends and what becomes of the device are settled
before. Only the buffer knows its capacity, and it keeps a prefix of what is printed. So under a
smaller capacity the body is the beginning of the body under a greater one. This holds with the lock
free or held as well, for taking it does not depend on the settings either, and whatever the memory
controller does when it is asked.
-/

set_option autoImplicit false

namespace DeviceReports

/-! ### Settled renderings -/

namespace Rendering

variable {ι σ α β : Type} {x : ι → Rendering σ α} {s : σ}

/-- From a state, renderings that all end alike, leave the same state and print the same texts into
any sound buffer. -/
def Settled (x : ι → Rendering σ α) (s : σ) : Prop :=
  ∃ e after ts, ∀ i (out : ReportBuffer), out.Sound →
    (x i).outcome (s, out) = (e, (after, out.printAll ts))

theorem Settled.bind {f : ι → α → Rendering σ β} (first : Settled x s)
    (next : ∀ a t, Settled (fun i => f i a) t) : Settled (fun i => x i >>= f i) s := by
  obtain ⟨e | a, t, ts, hfirst⟩ := first
  · exact ⟨.error e, t, ts, fun i out sound => Effect.outcome_bind_error (hfirst i out sound) _⟩
  · obtain ⟨e, after, us, hnext⟩ := next a t
    refine ⟨e, after, ts ++ us, fun i out sound => ?_⟩
    rw [Effect.outcome_bind_ok (hfirst i out sound), hnext i _ (sound.printAll ts),
      ReportBuffer.printAll_append]

theorem Settled.always {final : ι → Rendering σ Unit} (body : Settled x s)
    (last : ∀ t, Settled final t) : Settled (fun i => (x i).always (final i)) s := by
  obtain ⟨e, t, ts, hbody⟩ := body
  by_cases hendless : e = .error .endless
  · refine ⟨e, t, ts, fun i out sound => ?_⟩
    rw [Process.always_endless (by rw [hbody i out sound, hendless]), hbody i out sound]
  · have hends (i : ι) (out : ReportBuffer) (sound : out.Sound) :
        ((x i).outcome (s, out)).1 ≠ .error .endless := by
      rw [hbody i out sound]
      exact hendless
    obtain ⟨f | done, after, us, hfinal⟩ := last t
    · refine ⟨.error f, after, ts ++ us, fun i out sound => ?_⟩
      rw [Process.always_ended (hends i out sound), hbody i out sound,
        hfinal i _ (sound.printAll ts), ReportBuffer.printAll_append]
    · refine ⟨e, after, ts ++ us, fun i out sound => ?_⟩
      rw [Process.always_ended (hends i out sound), hbody i out sound,
        hfinal i _ (sound.printAll ts), ReportBuffer.printAll_append]

theorem settled_state (s : σ) : Settled (fun _ : ι => state) s :=
  ⟨.ok s, s, [], fun _ out _ => outcome_state s out⟩

end Rendering

namespace Report

open Rendering

variable {ι : Type} {r : Report} {s : Settings} {d : Device}
  {pieces : Settings → Device → List Piece}

theorem settled_lock {α : Type} (act : Process Int32 α) (d : Device) :
    Settled (fun _ : ι => act.focus lockWord putLockWord) d :=
  ⟨(act.outcome d.lockWord).1, d.putLockWord (act.outcome d.lockWord).2, [], fun _ _ _ => rfl⟩

/-- Rendering under the lock is settled as far as the generation is, be the lock free or held. -/
theorem settled_rendering {settings : ι → Settings}
    (generated : ∀ d, Settled (fun i => r.generate (settings i)) d) (d : Device) :
    Settled (fun i => r.rendering (settings i)) d := by
  unfold rendering
  cases r.requiresLock with
  | false => exact generated d
  | true =>
    refine (settled_state d).bind fun d t => ?_
    refine (settled_lock (Lock.acquire d.lock.patience) t).bind fun _ t => ?_
    exact (generated t).always (settled_lock Lock.release)

end Report

/-! ### Settings with other limits -/

/-- The settings with other limits of a rendering. -/
def Settings.withLimits (s : Settings) (limits : Bounds) : Settings :=
  { s with sizeLimit := limits.sizeLimit, bufferCapacity := limits.bufferCapacity }

namespace Report

open Rendering

variable {r : Report} {s t : Settings} {d : Device} {pieces : Settings → Device → List Piece}

/-- Pieces that the limits make no difference to are printed whatever the limits are. -/
theorem Lists.settled (lists : r.Lists pieces)
    (same : ∀ limits d, pieces (s.withLimits limits) d = pieces s d) (d : Device) :
    Settled (fun limits => r.generate (s.withLimits limits)) d := by
  refine ⟨Piece.ending (pieces s d), d, Piece.texts (pieces s d), fun limits out sound => ?_⟩
  rw [lists _ d out sound, same]

theorem BufferPool.indicesFrom_withLimits (s : Settings) (limits : Bounds) (i : Nat)
    (buffers : List Number) : indicesFrom (s.withLimits limits) i buffers =
      indicesFrom s i buffers := by
  induction buffers generalizing i with
  | nil => rfl
  | cons list rest ih =>
    have hbreaks : breaksBefore (s.withLimits limits) i = breaksBefore s i := rfl
    rw [indicesFrom, indicesFrom, hbreaks, ih]

theorem BufferPool.pieces_withLimits (s : Settings) (limits : Bounds) (pool : DmaPool) :
    BufferPool.pieces (s.withLimits limits) pool = BufferPool.pieces s pool := by
  rw [BufferPool.pieces, indicesFrom_withLimits]
  rfl

theorem Accounting.settled (s : Settings) (d : Device) :
    Settled (fun limits => Accounting.report.generate (s.withLimits limits)) d := by
  rcases hquery : (query.outcome d).1 with stop | status
  · refine ⟨.error stop, queried d, [], fun limits out _ => ?_⟩
    exact generate_unanswered (s.withLimits limits) hquery out
  · let pieces := Accounting.pieces s (queried d) status
    refine ⟨Piece.ending pieces, queried d, Piece.texts pieces, fun limits out sound => ?_⟩
    exact generate_answered (s.withLimits limits) hquery sound

/-- The generation of a built-in report heeds neither the limits nor the buffer, but for the report
on named objects. -/
theorem builtin_settled (h : r ∈ builtin true) (other : r.name ≠ NamedObjects.report.name)
    (s : Settings) (d : Device) : Settled (fun limits => r.generate (s.withLimits limits)) d := by
  have hpieces (name : String) (requiresLock : Bool) (pieces : Settings → Device → List Piece)
      (same : ∀ limits d, pieces (s.withLimits limits) d = pieces s d) :
      Settled (fun limits => (ofPieces name requiresLock pieces).generate (s.withLimits limits))
        d :=
    (lists_ofPieces name requiresLock pieces).settled same d
  simp only [builtin, core, debugging, if_true, List.mem_append, List.mem_cons, List.not_mem_nil,
    or_false] at h
  rcases h with (rfl | rfl | rfl | rfl | rfl | rfl | rfl | rfl | rfl) | rfl
  · exact hpieces _ _ _ fun _ _ => rfl
  · exact hpieces _ _ _ fun _ _ => rfl
  · exact hpieces _ _ _ fun _ _ => rfl
  · exact hpieces _ _ _ fun _ _ => rfl
  · exact Queues.lists.settled (fun _ _ => rfl) d
  · refine hpieces _ _ _ fun _ d => ?_
    cases d.dma with
    | none => rfl
    | some pool => exact BufferPool.pieces_withLimits s _ pool
  · exact Accounting.settled s d
  · exact absurd rfl other
  · exact hpieces _ _ _ fun _ _ => rfl
  · exact hpieces _ _ _ fun _ _ => rfl

/-! ### Bodies -/

/-- What a buffer keeps is the beginning of what a larger one keeps. -/
theorem contentOf_take (limit limit' : Nat) {capacity capacity' : Nat} (less : capacity ≤ capacity')
    (ts : List Text) : Bounds.contentOf limit capacity ts =
      (Bounds.contentOf limit' capacity' ts).take
        (min capacity (Bounds.contentOf limit' capacity' ts).length) := by
  have hkept (limit capacity : Nat) : Bounds.contentOf limit capacity ts =
      (ts.flatMap Text.encode).take (min capacity ReportBuffer.mostBytes) := by
    rw [Bounds.contentOf, Bounds.buffer, ReportBuffer.printAll_new, ReportBuffer.content_holding]
  rw [hkept, hkept, List.length_take, List.take_take, List.take_eq_take_iff]
  omega

/-- A settled rendering within the limits stops alike under all of them, or fills a buffer for each
with the same texts. -/
theorem rendered_of_settled
    (settled : Settled (fun limits => r.rendering (s.withLimits limits)) d) :
    (∃ e, ∀ limit capacity,
      r.rendered (s.withLimits (Bounds.ofCounts limit capacity)) d = .error e) ∨
    ∃ ts, ∀ limit capacity, r.rendered (s.withLimits (Bounds.ofCounts limit capacity)) d =
      .ok ((Bounds.buffer limit capacity).printAll ts) := by
  have hfresh (limit capacity : Nat) :
      r.rendered (s.withLimits (Bounds.ofCounts limit capacity)) d =
        ((fresh (Bounds.ofCounts limit capacity)
          (r.rendering (s.withLimits (Bounds.ofCounts limit capacity)))).outcome d).1 := rfl
  obtain ⟨e | done, after, ts, hrun⟩ := settled
  · refine Or.inl ⟨e, fun limit capacity => ?_⟩
    rw [hfresh, Reading.fresh_ofCounts, into, hrun _ _ (Bounds.sound_buffer limit capacity)]
  · refine Or.inr ⟨ts, fun limit capacity => ?_⟩
    rw [hfresh, Reading.fresh_ofCounts, into, hrun _ _ (Bounds.sound_buffer limit capacity)]

/-- Under two accepted settings that differ in the limits alone, the body of a report is cut at the
smaller capacity and is otherwise the same, or there is none under either. The report on named
objects apart, rendering heeds neither the limits nor what the buffer has taken. -/
theorem body_cut_at_capacity (machine : String) (config config' : Value) (s t : Settings)
    (first : Settings.resolve machine config = .ok s)
    (second : Settings.resolve machine config' = .ok t) (alike : t = s.withLimits t.bounds)
    (less : s.bufferCapacity ≤ t.bufferCapacity) (r : Report) (built : r ∈ builtin true)
    (other : r.name ≠ "gem_names") (d : Device) :
    (∃ e after ts, ∀ limits (out : ReportBuffer), out.Sound →
      (r.rendering (s.withLimits limits)).outcome (d, out) = (e, (after, out.printAll ts))) ∧
    ((∃ e, r.rendered s d = .error e ∧ r.rendered t d = .error e) ∨
      ∃ capacity out out', s.bufferCapacity = .ofCount capacity ∧
        r.rendered s d = .ok out ∧ r.rendered t d = .ok out' ∧
        out.content.toList = out'.content.toList.take (min capacity out'.size)) := by
  have hsettled : Settled (fun limits => r.rendering (s.withLimits limits)) d :=
    settled_rendering (builtin_settled built other s) d
  refine ⟨hsettled, ?_⟩
  obtain ⟨limit, capacity, hbounds, -⟩ := Settings.bounds_of_resolve first
  obtain ⟨limit', capacity', hbounds', -⟩ := Settings.bounds_of_resolve second
  have hsame : s = s.withLimits (Bounds.ofCounts limit capacity) := by rw [← hbounds]; rfl
  have hcapacity : s.bufferCapacity = .ofCount capacity := congrArg Bounds.bufferCapacity hbounds
  have hcapacity' : t.bufferCapacity = .ofCount capacity' := congrArg Bounds.bufferCapacity hbounds'
  rw [hcapacity, hcapacity', Number.ofCount_le_ofCount] at less
  rw [hbounds'] at alike
  rcases rendered_of_settled hsettled with ⟨e, hfails⟩ | ⟨ts, hrenders⟩
  · have hfailed := hfails limit capacity
    have hfailed' := hfails limit' capacity'
    rw [← hsame] at hfailed
    rw [← alike] at hfailed'
    exact Or.inl ⟨e, hfailed, hfailed'⟩
  · have hrendered := hrenders limit capacity
    have hrendered' := hrenders limit' capacity'
    rw [← hsame] at hrendered
    rw [← alike] at hrendered'
    have hcut := contentOf_take limit limit' less ts
    rw [Bounds.contentOf, Bounds.contentOf, ReportBuffer.length_content] at hcut
    exact Or.inr ⟨capacity, _, _, hcapacity, hrendered, hrendered', hcut⟩

/-- The default settings with room for 96 bytes. -/
def narrow : Settings := Settings.defaults.withLimits (Bounds.ofCounts 16 96)

/-- The report on memory areas of a device without any does not fit into 96 bytes. -/
theorem memory_areas_cut :
    Settings.resolve "x64" (.record [("sizeLimit", .number (.ofCount 16)),
      ("bufferCapacity", .number (.ofCount 96))]) = .ok narrow ∧
    Settings.resolve "x64" .missing = .ok Settings.defaults ∧
    Settings.defaults = narrow.withLimits Settings.defaults.bounds ∧
    narrow.bufferCapacity ≤ Settings.defaults.bufferCapacity ∧
    MemoryAreas.report ∈ builtin true ∧ MemoryAreas.report.name ≠ "gem_names" ∧
    ∃ out out', MemoryAreas.report.rendered narrow Sample.bare = .ok out ∧
      MemoryAreas.report.rendered Settings.defaults Sample.bare = .ok out' ∧
      96 < out'.size ∧ out.content.toList = out'.content.toList.take 96 := by
  have hnarrow : Settings.resolve "x64" (.record [("sizeLimit", .number (.ofCount 16)),
      ("bufferCapacity", .number (.ofCount 96))]) = .ok narrow :=
    Settings.resolve_of_validate rfl (by decide +kernel) (by decide +kernel)
  have hless : narrow.bufferCapacity ≤ Settings.defaults.bufferCapacity := by
    rw [Settings.defaults, narrow]
    exact Number.ofCount_le_ofCount.mpr (by decide)
  have hbuilt : MemoryAreas.report ∈ builtin true :=
    List.mem_append_left _ (List.mem_cons_of_mem _ List.mem_cons_self)
  have hother : MemoryAreas.report.name ≠ "gem_names" := by decide
  obtain ⟨whole, hwhole, hlong⟩ :
      ∃ out, MemoryAreas.report.rendered Settings.defaults Sample.bare = .ok out ∧
        96 < out.size := by
    have hbounds : Settings.defaults.bounds = Bounds.ofCounts 4016 4096 := rfl
    refine ⟨_, rendered_of_complete (lists_ofPieces _ _ _) rfl hbounds
      (eq_ok_of_toOption (by decide +kernel)), ?_⟩
    rw [Bounds.buffer, ReportBuffer.printAll_new, ReportBuffer.size_holding]
    decide +kernel
  refine ⟨hnarrow, Settings.resolve_missing, rfl, hless, hbuilt, hother, ?_⟩
  rcases (body_cut_at_capacity _ _ _ narrow Settings.defaults hnarrow Settings.resolve_missing rfl
    hless MemoryAreas.report hbuilt hother Sample.bare).2 with
    ⟨e, -, hfailed⟩ | ⟨capacity, out, out', hcapacity, hout, hout', hcontent⟩
  · cases hfailed.symm.trans hwhole
  · have hinety : ((96 : Nat) : Rat) = capacity := Number.finite.inj hcapacity
    obtain rfl : 96 = capacity := by exact_mod_cast hinety
    obtain rfl := Except.ok.inj (hwhole.symm.trans hout')
    rw [Nat.min_eq_left (Nat.le_of_lt hlong)] at hcontent
    exact ⟨out, whole, hout, hwhole, hlong, hcontent⟩

end Report

end DeviceReports
