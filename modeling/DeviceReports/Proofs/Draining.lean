import DeviceReports.Proofs.Windows
import Mathlib.Order.Nat

/-!
# Draining a report

A drain reads full windows until one reaches the end of its own rendering or starts past the
size limit. The renderings need not agree: each may find another state. What is counted here
is reads and renderings; a rendering that fails ends the drain and is not covered.
-/

set_option autoImplicit false

namespace DeviceReports

open Text (Bytes)

variable {σ : Type}

/-- A read that was answered. -/
structure ReadEvent where
  offset : Number
  length : Number
  chunk : Chunk

namespace Reader

/-- The reader that takes down each read it answers. -/
def noted (r : Reader σ) : Reader (σ × List ReadEvent) where
  read offset length := Effect.ofOutcome fun (s, log) =>
    match (r.read offset length).outcome s with
    | (.ok chunk, t) => (.ok chunk, (t, log ++ [⟨offset, length, chunk⟩]))
    | (.error e, t) => (.error e, (t, log))
  span := r.span

theorem noted_read {r : Reader σ} {offset length : Number} {s t : σ} {chunk : Chunk}
    (h : (r.read offset length).outcome s = (.ok chunk, t)) (log : List ReadEvent) :
    (r.noted.read offset length).outcome (s, log) =
      (.ok chunk, (t, log ++ [⟨offset, length, chunk⟩])) := by
  rw [noted, Effect.outcome_ofOutcome]
  simp only [h]

/-- Reads that are full up to the last one, which ends: `state k` is what the `k`-th finds. -/
structure Steps (r : Reader σ) (c last : Nat) (state : Nat → σ) (chunk : Nat → Chunk) : Prop where
  read : ∀ k, k ≤ last →
    (r.read (.ofCount (k * c)) (.ofCount c)).outcome (state k) = (.ok (chunk k), state (k + 1))
  full : ∀ k, k < last → (chunk k).eof = false ∧ (chunk k).bytes.length = c
  ends : (chunk last).eof = true

theorem drainFrom_of_steps {r : Reader σ} {c last : Nat} {state : Nat → σ} {chunk : Nat → Chunk}
    (steps : Steps r c last state chunk) {rest k fuel : Nat} (hlast : k + rest = last)
    (enough : rest < fuel) :
    (r.drainFrom c fuel (k * c)).outcome (state k) =
      (.ok ((List.range' k (rest + 1)).flatMap fun i => (chunk i).bytes), state (last + 1)) := by
  induction rest generalizing k fuel with
  | zero =>
    obtain ⟨fuel, rfl⟩ : ∃ n, fuel = n + 1 := ⟨fuel - 1, by omega⟩
    have hk : k = last := by omega
    subst hk
    rw [drainFrom, Effect.outcome_bind_ok (steps.read k (Nat.le_refl k)), if_pos steps.ends]
    simp
  | succ rest ih =>
    obtain ⟨fuel, rfl⟩ : ∃ n, fuel = n + 1 := ⟨fuel - 1, by omega⟩
    obtain ⟨hgoes, hfull⟩ := steps.full k (by omega)
    have hnext : k * c + (chunk k).bytes.length = (k + 1) * c := by rw [hfull]; ring
    have hrest : (r.drainFrom c fuel ((k + 1) * c)).outcome (state (k + 1)) =
        (.ok ((List.range' (k + 1) (rest + 1)).flatMap fun i => (chunk i).bytes),
          state (last + 1)) := ih (by omega) (by omega)
    rw [drainFrom, Effect.outcome_bind_ok (steps.read k (by omega)), if_neg (by simp [hgoes]),
      hnext, Effect.outcome_bind_ok hrest, Effect.outcome_pure]
    rfl

theorem drain_of_steps {r : Reader σ} {c last : Nat} {state : Nat → σ} {chunk : Nat → Chunk}
    (steps : Steps r c last state chunk) (pos : 1 ≤ c) (small : c < Number.exactBound)
    (enough : last < r.span / c + 2) :
    (r.drain (.ofCount c)).outcome (state 0) =
      (.ok ((List.range (last + 1)).flatMap fun i => (chunk i).bytes), state (last + 1)) := by
  obtain ⟨c, rfl⟩ : ∃ n, c = n + 1 := ⟨c - 1, by omega⟩
  have hfrom := drainFrom_of_steps steps (Nat.zero_add last) enough
  rw [Nat.zero_mul] at hfrom
  rw [drain, Number.count?_ofCount small, List.range_eq_range']
  exact hfrom

theorem noted_steps {r : Reader σ} {c last : Nat} {state : Nat → σ} {chunk : Nat → Chunk}
    (steps : Steps r c last state chunk) :
    Steps r.noted c last
      (fun k => (state k, (List.range k).map fun i => ⟨.ofCount (i * c), .ofCount c, chunk i⟩))
      chunk where
  read k hk := by
    rw [noted_read (steps.read k hk), List.range_succ, List.map_append]
    rfl
  full := steps.full
  ends := steps.ends

end Reader

namespace Reading

/-- Renderings that succeed one after the other: the `k`-th finds `state k`, prints `texts k`
into the buffer it is given, and leaves `state (k + 1)`. The states may hold a whole schedule
of devices, so what one rendering prints says nothing about the next. -/
def RendersInTurn (render : Rendering σ Unit) (empty : ReportBuffer) (state : Nat → σ)
    (texts : Nat → List Text) : Prop :=
  ∀ k, render.into empty (state k) = (.ok (), state (k + 1), empty.printAll (texts k))

/-- A rendering by a schedule: its `k`-th run prints `texts k`. -/
def scheduled (texts : Nat → List Text) : Rendering Nat Unit := do
  let clock ← Rendering.state
  Rendering.printEach ((texts clock).map Except.ok)
  Rendering.onState (modify (· + 1))

/-- Every sequence of prints is that of some renderings in turn. -/
theorem scheduled_rendersInTurn (texts : Nat → List Text) {empty : ReportBuffer}
    (sound : empty.Sound) : RendersInTurn (scheduled texts) empty id texts := by
  intro k
  have hstate : (Rendering.state : Rendering Nat Nat).outcome (k, empty) = (.ok k, (k, empty)) :=
    rfl
  change (scheduled texts).outcome (k, empty) = _
  rw [scheduled, Effect.outcome_bind_ok hstate,
    Effect.outcome_bind_ok (Rendering.outcome_printEach _ _ sound)]
  rfl

/-- Whether a drain in steps of `c` ends with its `k`-th read. -/
def EndsAt (sizeLimit c : Nat) (body : Nat → Bytes) (k : Nat) : Prop :=
  sizeLimit < k * c ∨ (body k).length ≤ (k + 1) * c

/-- What the `k`-th read of a drain in steps of `c` answers. -/
def chunkAt (sizeLimit c : Nat) (body : Nat → Bytes) (k : Nat) : Chunk :=
  if sizeLimit < k * c then .ending else .ofContent (body k) (k * c) c

instance (sizeLimit c : Nat) (body : Nat → Bytes) (k : Nat) :
    Decidable (EndsAt sizeLimit c body k) :=
  inferInstanceAs (Decidable (_ ∨ _))

theorem chunkAt_eof (sizeLimit c : Nat) (body : Nat → Bytes) (k : Nat) :
    (chunkAt sizeLimit c body k).eof = true ↔ EndsAt sizeLimit c body k := by
  rw [chunkAt, EndsAt, Nat.succ_mul]
  split <;> simp_all [Chunk.ending, Chunk.ofContent]

theorem chunkAt_bytes (sizeLimit c : Nat) (body : Nat → Bytes) (k : Nat) :
    (chunkAt sizeLimit c body k).bytes =
      if sizeLimit < k * c then [] else (body k).extract (k * c) ((k + 1) * c) := by
  rw [chunkAt, Nat.succ_mul]
  split <;> rfl

theorem chunkAt_full {sizeLimit c : Nat} {body : Nat → Bytes} {k : Nat}
    (goes : ¬ EndsAt sizeLimit c body k) : (chunkAt sizeLimit c body k).bytes.length = c := by
  obtain ⟨hwithin, hmore⟩ := not_or.mp goes
  rw [Nat.succ_mul] at hmore
  rw [chunkAt_bytes, if_neg hwithin, List.extract_eq_take_drop, List.length_take,
    List.length_drop, Nat.succ_mul]
  omega

theorem exists_last (sizeLimit : Nat) {c : Nat} (pos : 1 ≤ c) (body : Nat → Bytes) :
    ∃ last, EndsAt sizeLimit c body last ∧ ∀ k, k < last → ¬ EndsAt sizeLimit c body k := by
  have hpast : EndsAt sizeLimit c body (sizeLimit + 1) :=
    Or.inl (Nat.lt_of_lt_of_le (Nat.lt_succ_self _) (Nat.le_mul_of_pos_right _ pos))
  exact ⟨Nat.find ⟨_, hpast⟩, Nat.find_spec ⟨_, hpast⟩, fun k hk => Nat.find_min ⟨_, hpast⟩ hk⟩

variable {render : Rendering σ Unit} {sizeLimit capacity c last : Nat} {state : Nat → σ}
  {texts : Nat → List Text}

/-- A read before the end leaves content behind it, and no buffer holds more than its span. -/
theorem offset_lt_span
    (goes : ∀ k, k < last → ¬ EndsAt sizeLimit c
      (fun k => Bounds.contentOf sizeLimit capacity (texts k)) k) {k : Nat} (hk : k ≤ last)
    (pos : 0 < k) : k * c < min capacity ReportBuffer.mostBytes := by
  obtain ⟨j, rfl⟩ : ∃ j, k = j + 1 := ⟨k - 1, by omega⟩
  have hmore : ¬ (Bounds.contentOf sizeLimit capacity (texts j)).length ≤ (j + 1) * c :=
    (not_or.mp (goes j (by omega))).2
  have hspan := Bounds.contentOf_length_le sizeLimit capacity (texts j)
  omega

theorem steps_of_renders
    (renders : RendersInTurn render (Bounds.buffer sizeLimit capacity) state texts)
    (small : c < Number.exactBound)
    (ends : EndsAt sizeLimit c (fun k => Bounds.contentOf sizeLimit capacity (texts k)) last)
    (goes : ∀ k, k < last → ¬ EndsAt sizeLimit c
      (fun k => Bounds.contentOf sizeLimit capacity (texts k)) k) :
    Reader.Steps (reader (Bounds.ofCounts sizeLimit capacity) render) c last
      (fun k => if k ≤ last then state k
        else state (if sizeLimit < last * c then last else last + 1))
      (chunkAt sizeLimit c fun k => Bounds.contentOf sizeLimit capacity (texts k)) where
  read k hk := by
    have hbound : ReportBuffer.mostBytes < Number.exactBound := by decide
    have hoffset : k * c < Number.exactBound := by
      by_cases h0 : k = 0
      · rw [h0, Nat.zero_mul]; decide
      · have := offset_lt_span goes hk (by omega)
        omega
    change (read (Bounds.ofCounts sizeLimit capacity) render _ _).outcome _ = _
    rw [if_pos hk, chunkAt]
    by_cases hpast : sizeLimit < k * c
    · have hk : k = last := by
        by_contra hne
        exact goes k (by omega) (Or.inl hpast)
      subst hk
      rw [read_past render hoffset small hpast, if_pos hpast, if_pos hpast, if_neg (by omega)]
    · rw [read_rendered hoffset small (by omega) (renders k), if_neg hpast]
      by_cases hlast : k = last
      · subst hlast
        rw [if_neg (by omega), if_neg hpast]
      · rw [if_pos (by omega)]
  full k hk := by
    refine ⟨?_, chunkAt_full (goes k hk)⟩
    rw [Bool.eq_false_iff]
    exact mt (chunkAt_eof _ _ _ _).mp (goes k hk)
  ends := (chunkAt_eof _ _ _ _).mpr ends

theorem last_lt_fuel (pos : 1 ≤ c)
    (goes : ∀ k, k < last → ¬ EndsAt sizeLimit c
      (fun k => Bounds.contentOf sizeLimit capacity (texts k)) k) :
    last < (reader (Bounds.ofCounts sizeLimit capacity) render).span / c + 2 := by
  have hspan : (reader (Bounds.ofCounts sizeLimit capacity) render).span =
      min capacity ReportBuffer.mostBytes := ReportBuffer.capacityOf_ofCount capacity
  rw [hspan]
  by_cases h0 : last = 0
  · rw [h0]
    exact Nat.succ_pos _
  · have hoffset := offset_lt_span goes (Nat.le_refl last) (by omega)
    have hdiv : last ≤ min capacity ReportBuffer.mostBytes / c :=
      (Nat.le_div_iff_mul_le pos).mpr (Nat.le_of_lt hoffset)
    omega

theorem drain_outcome
    (renders : RendersInTurn render (Bounds.buffer sizeLimit capacity) state texts)
    (pos : 1 ≤ c) (small : c < Number.exactBound)
    (ends : EndsAt sizeLimit c (fun k => Bounds.contentOf sizeLimit capacity (texts k)) last)
    (goes : ∀ k, k < last → ¬ EndsAt sizeLimit c
      (fun k => Bounds.contentOf sizeLimit capacity (texts k)) k) :
    let source := reader (Bounds.ofCounts sizeLimit capacity) render
    let chunk := chunkAt sizeLimit c fun k => Bounds.contentOf sizeLimit capacity (texts k)
    let result := (List.range (last + 1)).flatMap fun k => (chunk k).bytes
    let final := state (if sizeLimit < last * c then last else last + 1)
    (source.drain (.ofCount c)).outcome (state 0) = (.ok result, final) ∧
      (source.noted.drain (.ofCount c)).outcome (state 0, []) =
        (.ok result, (final, (List.range (last + 1)).map fun k =>
          ⟨.ofCount (k * c), .ofCount c, chunk k⟩)) := by
  intro source chunk result final
  have hsteps := steps_of_renders renders small ends goes
  have hfuel : last < source.span / c + 2 := last_lt_fuel pos goes
  have hdrain := Reader.drain_of_steps hsteps pos small hfuel
  have hnoted := Reader.drain_of_steps (Reader.noted_steps hsteps) pos small hfuel
  rw [if_pos (Nat.zero_le last), if_neg (by omega)] at hdrain
  simp only [if_pos (Nat.zero_le last), if_neg (show ¬ last + 1 ≤ last by omega)] at hnoted
  exact ⟨hdrain, hnoted⟩

/-- The windows of one content, one after the other, are its beginning. -/
theorem flatMap_extract (content : Bytes) (c n : Nat) :
    ((List.range n).flatMap fun k => content.extract (k * c) ((k + 1) * c)) =
      content.take (n * c) := by
  induction n with
  | zero => simp
  | succ n ih =>
    have hwidth : (n + 1) * c - n * c = c := by rw [Nat.succ_mul]; omega
    rw [List.range_succ, List.flatMap_append, ih, List.flatMap_singleton,
      List.extract_eq_take_drop, hwidth, Nat.succ_mul, List.take_add]

/-- Where all renderings agree, the reads that are answered join to a beginning of the content. -/
theorem flatMap_chunkAt (sizeLimit : Nat) (pos : 1 ≤ c) {content : Bytes}
    (ends : EndsAt sizeLimit c (fun _ => content) last)
    (goes : ∀ k, k < last → ¬ EndsAt sizeLimit c (fun _ => content) k) :
    ((List.range (last + 1)).flatMap fun k => (chunkAt sizeLimit c (fun _ => content) k).bytes) =
      content.take (c * (sizeLimit / c + 1)) := by
  have hwithin (k : Nat) : ¬ sizeLimit < k * c ↔ k ≤ sizeLimit / c := by
    rw [Nat.not_lt, Nat.le_div_iff_mul_le pos]
  have hbefore : ((List.range last).flatMap fun k =>
      (chunkAt sizeLimit c (fun _ => content) k).bytes) = content.take (last * c) := by
    rw [← flatMap_extract]
    apply List.flatMap_congr
    intro k hk
    rw [chunkAt_bytes, if_neg (not_or.mp (goes k (List.mem_range.mp hk))).1]
  rw [List.range_succ, List.flatMap_append, hbefore, List.flatMap_singleton, chunkAt_bytes]
  by_cases hpast : sizeLimit < last * c
  · have hlast : last = sizeLimit / c + 1 := by
      have hover : ¬ last ≤ sizeLimit / c := mt (hwithin last).mpr (not_not.mpr hpast)
      have hprev : last - 1 ≤ sizeLimit / c := by
        by_cases h0 : last = 0
        · rw [h0]
          exact Nat.zero_le _
        · exact (hwithin _).mp (not_or.mp (goes (last - 1) (by omega))).1
      exact Nat.le_antisymm (Nat.sub_le_iff_le_add.mp hprev) (Nat.lt_of_not_le hover)
    rw [if_pos hpast, List.append_nil, ← hlast, Nat.mul_comm]
  · have hwhole : content.length ≤ (last + 1) * c := ends.resolve_left hpast
    have hreach : (last + 1) * c ≤ c * (sizeLimit / c + 1) := by
      rw [Nat.mul_comm]
      exact Nat.mul_le_mul_left c (Nat.succ_le_succ ((hwithin last).mp hpast))
    have hwidth : (last + 1) * c - last * c = c := by rw [Nat.succ_mul]; omega
    rw [if_neg hpast, List.extract_eq_take_drop, hwidth, ← List.take_add, ← Nat.succ_mul,
      List.take_of_length_le hwhole, List.take_of_length_le (by omega)]

/-- A drain makes exactly the reads up to the first that ends, renders for each of them that
starts within the size limit, and joins what they answer. Where all renderings agree the
result is a beginning of their content, and the whole of it in steps of every size exactly
when at most one byte lies past the size limit. -/
theorem drain_renders_until_end (render : Rendering σ Unit) (sizeLimit capacity : Nat)
    (state : Nat → σ) (texts : Nat → List Text)
    (renders : RendersInTurn render (Bounds.buffer sizeLimit capacity) state texts) :
    let source := reader (Bounds.ofCounts sizeLimit capacity) render
    let body := fun k => Bounds.contentOf sizeLimit capacity (texts k)
    (∀ c, 1 ≤ c → c < Number.exactBound → ∃ last,
      EndsAt sizeLimit c body last ∧ (∀ k, k < last → ¬ EndsAt sizeLimit c body k) ∧
      (let result := (List.range (last + 1)).flatMap fun k =>
        if sizeLimit < k * c then [] else (body k).extract (k * c) ((k + 1) * c)
      let final := state (if sizeLimit < last * c then last else last + 1)
      (source.drain (.ofCount c)).outcome (state 0) = (.ok result, final) ∧
      (source.noted.drain (.ofCount c)).outcome (state 0, []) =
        (.ok result, (final, (List.range (last + 1)).map fun k =>
          ⟨.ofCount (k * c), .ofCount c, chunkAt sizeLimit c body k⟩)))) ∧
    ∀ content, (∀ k, body k = content) →
      (∀ c, 1 ≤ c → c < Number.exactBound →
        ((source.drain (.ofCount c)).outcome (state 0)).1 =
          .ok (content.take (min content.length (c * (sizeLimit / c + 1))))) ∧
      ((∀ c, 1 ≤ c → c < Number.exactBound →
        ((source.drain (.ofCount c)).outcome (state 0)).1 = .ok content) ↔
          content.length ≤ sizeLimit + 1) := by
  intro source body
  refine ⟨?_, ?_⟩
  · intro c pos small
    obtain ⟨last, ends, goes⟩ := exists_last sizeLimit pos body
    refine ⟨last, ends, goes, ?_⟩
    have hdrain := drain_outcome renders pos small ends goes
    simp only [chunkAt_bytes] at hdrain
    exact hdrain
  · intro content hsame
    have hbody : body = fun _ => content := funext hsame
    have hresult (c : Nat) (pos : 1 ≤ c) (small : c < Number.exactBound) :
        ((source.drain (.ofCount c)).outcome (state 0)).1 =
          .ok (content.take (c * (sizeLimit / c + 1))) := by
      obtain ⟨last, ends, goes⟩ := exists_last sizeLimit pos body
      rw [(drain_outcome renders pos small ends goes).1]
      rw [hbody] at ends goes
      change Except.ok ((List.range (last + 1)).flatMap fun k =>
        (chunkAt sizeLimit c body k).bytes) = _
      rw [hbody, flatMap_chunkAt sizeLimit pos ends goes]
    refine ⟨?_, ?_, ?_⟩
    · intro c pos small
      rw [hresult c pos small, Nat.min_comm, ← List.take_eq_take_min]
    · intro hall
      have hone := (hresult 1 (Nat.le_refl 1) (by decide)).symm.trans
        (hall 1 (Nat.le_refl 1) (by decide))
      have htake : content.take (sizeLimit + 1) = content := by simpa using hone
      rw [← htake]
      exact List.length_take_le _ _
    · intro hshort c pos small
      have hreach : sizeLimit < c * (sizeLimit / c + 1) := Nat.lt_mul_div_succ sizeLimit pos
      rw [hresult c pos small, List.take_of_length_le (by omega)]

/-- A report that shrinks while it is drained in steps of two: the second read finds three
bytes where the first found six. -/
theorem drain_shrinking_report :
    let texts := fun k => if k = 0 then [[97, 98, 99, 100, 101, 102]] else [[120, 121, 122]]
    RendersInTurn (scheduled texts) (Bounds.buffer 3 8) id texts ∧
      ((reader (Bounds.ofCounts 3 8) (scheduled texts)).drain (.ofCount 2)).outcome 0 =
        (.ok [97, 98, 122], 2) := by
  intro texts
  have hturns := scheduled_rendersInTurn texts (Bounds.sound_buffer 3 8)
  refine ⟨hturns, ?_⟩
  obtain ⟨last, ends, goes, hdrain, _⟩ :=
    (drain_renders_until_end (scheduled texts) 3 8 id texts hturns).1 2 (by decide) (by decide)
  have hfirst : ¬ EndsAt 3 2 (fun k => Bounds.contentOf 3 8 (texts k)) 0 := by decide +kernel
  have hsecond : EndsAt 3 2 (fun k => Bounds.contentOf 3 8 (texts k)) 1 := by decide +kernel
  have hlast : last = 1 := by
    by_contra hne
    by_cases h0 : last = 0
    · exact hfirst (h0 ▸ ends)
    · exact goes 1 (by omega) hsecond
  subst hlast
  rw [show (0 : Nat) = id 0 from rfl, hdrain]
  refine Prod.ext (congrArg Except.ok ?_) rfl
  decide +kernel

end Reading

end DeviceReports
