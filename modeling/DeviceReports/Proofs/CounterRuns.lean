import DeviceReports.Proofs.CounterMoves

/-!
# Runs of counter steps

After any steps on any counters a word shows the signed 32-bit integer that is, modulo 2^32, the
last integer stored in it plus the times it was raised since less the times it was lowered, through
whichever counters. The figure that a counting step answers is not reduced so: it is the value
after the step unless the step wraps.
-/

set_option autoImplicit false

namespace DeviceReports.CounterBank

variable {b c d : CounterBank} {e : CounterEvent} {es before later : List CounterEvent}
  {w : WordSpot} {k : Nat} {s : CounterStep}

/-- The bank after some steps. -/
def after (b : CounterBank) (steps : List CounterStep) : CounterBank := steps.foldl next b

/-- What the steps come to, one by one. -/
def events (b : CounterBank) : List CounterStep → List CounterEvent
  | [] => []
  | s :: rest => b.event s :: (b.next s).events rest

/-! ### Paths -/

/-- Events that follow one another from a bank on, each by a move. -/
inductive Path : CounterBank → List CounterEvent → CounterBank → Prop
  | nil (b : CounterBank) : Path b [] b
  | cons {b c d : CounterBank} {e : CounterEvent} {es : List CounterEvent} (move : Move b e c)
      (rest : Path c es d) : Path b (e :: es) d

theorem path_after (b : CounterBank) (steps : List CounterStep) :
    Path b (b.events steps) (b.after steps) := by
  induction steps generalizing b with
  | nil => exact .nil b
  | cons s rest ih => exact .cons (moves b s) (ih (b.next s))

theorem Path.split (path : Path b (before ++ e :: later) d) :
    ∃ c after, Move c e after ∧ Path after later d := by
  induction before generalizing b with
  | nil =>
    cases path with
    | cons move rest => exact ⟨b, _, move, rest⟩
  | cons first others ih =>
    cases path with
    | cons move rest => exact ih rest

/-- Along a path a word into which nothing is stored goes up and down with the counts on it. -/
theorem Path.counted (path : Path b es c) (unstored : ∀ n, .stored w n ∉ es) :
    c.valueAt w ≡ b.valueAt w + balance w es [ZMOD 2 ^ 32] := by
  induction path with
  | nil => simp [balance]
  | @cons b c d e es move rest ih =>
    have hfirst := move.counted (w := w) fun n h => unstored n (h ▸ List.mem_cons_self)
    have hrest := ih fun n h => unstored n (List.mem_cons_of_mem e h)
    rw [balance_cons, ← Int.add_assoc]
    exact hrest.trans (hfirst.add_right _)

theorem Path.counted_since {n : Int} (path : Path b (before ++ .stored w n :: later) d)
    (unstored : ∀ m, .stored w m ∉ later) : d.valueAt w ≡ n + balance w later [ZMOD 2 ^ 32] := by
  obtain ⟨c, after, hmove, hrest⟩ := path.split
  exact (hrest.counted unstored).trans (hmove.stored.add_right _)

/-! ### Records -/

theorem run_getElem? (b : CounterBank) (steps : List CounterStep) (k : Nat) :
    (b.run steps)[k]? = steps[k]?.map fun s =>
      ⟨((b.after (steps.take k)).step s).map Prod.fst, (b.after (steps.take (k + 1))).values⟩ := by
  induction steps generalizing b k with
  | nil => rfl
  | cons s rest ih =>
    have hrun : b.run (s :: rest) =
        ⟨(b.step s).map Prod.fst, (b.next s).values⟩ :: (b.next s).run rest := by
      rw [run, next]
      rcases b.step s with failure | ⟨answer, after⟩ <;> rfl
    rw [hrun]
    cases k with
    | zero => rfl
    | succ k => exact ih (b.next s) k

theorem events_getElem? (b : CounterBank) (steps : List CounterStep) (k : Nat) :
    (b.events steps)[k]? = steps[k]?.map (b.after (steps.take k)).event := by
  induction steps generalizing b k with
  | nil => rfl
  | cons s rest ih =>
    cases k with
    | zero => rfl
    | succ k => exact ih (b.next s) k

theorem values_inside (inside : b.spot? k = some w) :
    b.values[k]? = some (some (b.valueAt w)) := by
  obtain ⟨p, buffer, hplace, -, -⟩ := spot?_eq_some_iff.mp inside
  have hbound := (List.getElem?_eq_some_iff.mp (place_eq_ok_iff.mp hplace).1).1
  rw [values, List.getElem?_map, List.getElem?_range hbound, Option.map_some, read_inside inside]
  rfl

/-! ### The laws -/

/-- The value of a word after some events: the one signed 32-bit integer that is the last integer
stored, and zero before the first, with what was counted since. -/
structure WordLaw (events : List CounterEvent) (w : WordSpot) (value : Int) : Prop where
  stored : ∀ before n later, events = before ++ .stored w n :: later →
    (∀ m, .stored w m ∉ later) → ∀ v, SignedWordOf (n + balance w later) v ↔ v = value
  unstored : (∀ n, .stored w n ∉ events) → ∀ v, SignedWordOf (balance w events) v ↔ v = value

theorem valueAt_ofSizes (sizes : List Nat) (w : WordSpot) : (ofSizes sizes).valueAt w = 0 := by
  rw [valueAt, wordAt, ofSizes, List.getElem?_map]
  rcases sizes[w.buffer]? with _ | bytes
  · rfl
  · simp only [Option.map_some, WordBuffer.zeroed, List.getD_eq_getElem?_getD,
      List.getElem?_replicate]
    split <;> rfl

theorem wordLaw (sizes : List Nat) (steps : List CounterStep) (w : WordSpot) :
    WordLaw ((ofSizes sizes).events steps) w (((ofSizes sizes).after steps).valueAt w) := by
  have hpath := path_after (ofSizes sizes) steps
  constructor
  · intro before n later hevents unstored v
    rw [hevents] at hpath
    exact (Counter.signedWordOf (hpath.counted_since unstored)).iff_eq v
  · intro unstored v
    have hcounted := hpath.counted unstored
    rw [valueAt_ofSizes, Int.zero_add] at hcounted
    exact (Counter.signedWordOf hcounted).iff_eq v

/-- What the next step does at a bank. -/
structure StepLaw (b : CounterBank) : Prop where
  /-- A counter shows the word that it stands for, so counters on one word show the same. -/
  shown : ∀ k w, b.spot? k = some w →
    b.values[k]? = some (some (b.valueAt w)) ∧ b.step (.value k) = .ok (some (b.valueAt w), b)
  /-- Steps through such a counter are made, and come to events on its word. -/
  counted : ∀ k w, b.spot? k = some w →
    (b.step (.increment k) = .ok (some (b.valueAt w + 1), b.next (.increment k)) ∧
      b.event (.increment k) = .raised w) ∧
    (b.step (.decrement k) = .ok (some (b.valueAt w - 1), b.next (.decrement k)) ∧
      b.event (.decrement k) = .lowered w) ∧
    ∀ x, b.step (.set k x) = .ok (none, b.next (.set k x)) ∧
      b.event (.set k x) = .stored w x.storedInt
  /-- Attaching a counter changes no buffer, and the counter stands for the word at its slot. -/
  attached : ∀ i buffer, b.buffers[i]? = some buffer → buffer.bytes % WordBuffer.wordBytes = 0 →
    ∀ x slot, b.step (.new x slot (some i)) = .ok (none, b.attach ⟨i, slot⟩) ∧
      b.event (.new x slot (some i)) = .nothing ∧ (b.attach ⟨i, slot⟩).buffers = b.buffers ∧
      (b.attach ⟨i, slot⟩).spot? b.places.length = (buffer.index? slot).map (WordSpot.mk i)
  /-- A counter without a buffer gets a word of its own, with the initial figure stored in it. -/
  made : ∀ slot i, (WordBuffer.zeroed WordBuffer.wordBytes).index? slot = some i → ∀ x,
    b.step (.new x slot none) = .ok (none, b.next (.new x slot none)) ∧
      b.event (.new x slot none) = .stored ⟨b.buffers.length, i⟩ x.storedInt ∧
      (b.next (.new x slot none)).spot? b.places.length = some ⟨b.buffers.length, i⟩
  /-- Counters go on to stand for their words. -/
  standing : ∀ s k w, b.spot? k = some w → (b.next s).spot? k = some w
  /-- No step changes another word than that of its event, or another buffer. -/
  apart : ∀ s w, (b.event s).spot? ≠ some w → (b.next s).wordAt w = b.wordAt w
  others : ∀ s j, j < b.buffers.length → (∀ w, (b.event s).spot? = some w → w.buffer ≠ j) →
    (b.next s).buffers[j]? = b.buffers[j]?

theorem stepLaw (b : CounterBank) : StepLaw b := by
  refine ⟨?_, ?_, ?_, ?_, ?_, ?_, ?_⟩
  · intro k w inside
    exact ⟨values_inside inside, step_value inside⟩
  · intro k w inside
    refine ⟨?_, ?_, ?_⟩
    · rw [next_of_ok (step_increment inside), event, inside]
      exact ⟨step_increment inside, rfl⟩
    · rw [next_of_ok (step_decrement inside), event, inside]
      exact ⟨step_decrement inside, rfl⟩
    · intro x
      rw [next_of_ok (step_set inside x), event, inside]
      exact ⟨step_set inside x, rfl⟩
  · intro i buffer there whole x slot
    have hplace : (b.attach ⟨i, slot⟩).place b.places.length = .ok (⟨i, slot⟩, buffer) :=
      place_eq_ok_iff.mpr ⟨List.getElem?_concat_length, there⟩
    refine ⟨step_attach there whole x slot, rfl, rfl, ?_⟩
    rw [spot?, hplace]
  · intro slot i inside x
    rw [next_of_ok (step_fresh inside x)]
    refine ⟨step_fresh inside x, by rw [event, inside], ?_⟩
    refine spot?_eq_some_iff.mpr ⟨⟨b.buffers.length, slot⟩, _,
      place_eq_ok_iff.mpr ⟨List.getElem?_concat_length, List.getElem?_concat_length⟩, ?_, rfl⟩
    rw [← inside]
    exact index?_congr List.length_set slot
  · intro s k w inside
    exact (moves b s).spot?_eq inside
  · intro s w apart
    exact (moves b s).wordAt_ne apart
  · intro s j there apart
    exact (moves b s).buffer_ne there apart

/-- In every run on zeroed buffers each word shows what was last stored in it and counted since, an
integer being stored as it is; every step changes the word of its event alone; and the records of
the run are the answers and the values that the banks give in turn. -/
theorem run_keeps_counts (sizes : List Nat) (steps : List CounterStep) :
    let start := ofSizes sizes
    (∀ n : Int, (Number.finite (n : Rat)).storedInt = n) ∧
      (∀ w, WordLaw (start.events steps) w ((start.after steps).valueAt w)) ∧
      (∀ k, StepLaw (start.after (steps.take k))) ∧
      ∀ k s, steps[k]? = some s →
        let bank := start.after (steps.take k)
        (start.events steps)[k]? = some (bank.event s) ∧
          (start.run steps)[k]? =
            some ⟨(bank.step s).map Prod.fst, (start.after (steps.take (k + 1))).values⟩ := by
  intro start
  refine ⟨Number.storedInt_intCast, wordLaw sizes steps, fun k => stepLaw _, ?_⟩
  intro k s hs
  constructor
  · rw [events_getElem?, hs]
    rfl
  · rw [run_getElem?, hs]
    rfl

/-- Two counters on the second word of a buffer: one sets it to the greatest value, the other counts
up, and the first shows the least value. -/
theorem run_keeps_counts_shared :
    let bank := (ofSizes [8]).after [.new (.finite 9) (.finite 1) (some 0),
      .new (.finite 5) (.finite 1) (some 0), .set 0 (.finite 2147483647), .increment 1]
    bank.spot? 0 = some ⟨0, 1⟩ ∧ bank.spot? 1 = some ⟨0, 1⟩ ∧
      bank.valueAt ⟨0, 1⟩ = -2147483648 := by
  intro bank
  refine ⟨rfl, rfl, ?_⟩
  have hlaw := (run_keeps_counts [8] [.new (.finite 9) (.finite 1) (some 0),
    .new (.finite 5) (.finite 1) (some 0), .set 0 (.finite 2147483647), .increment 1]).2.1 ⟨0, 1⟩
  have hsince := hlaw.stored [.nothing, .nothing] 2147483647 [.raised ⟨0, 1⟩] rfl (by simp)
  exact ((hsince (-2147483648)).mp ⟨by decide, by decide, by decide⟩).symm

/-- A counting step answers the value before it plus or minus one. That is the value which the
counter shows afterwards, but for the greatest one counted up and the least one counted down. -/
theorem answers_unless_wrapping (sizes : List Nat) (steps : List CounterStep) (k : Nat)
    (w : WordSpot) (inside : ((ofSizes sizes).after steps).spot? k = some w) :
    let bank := (ofSizes sizes).after steps
    let up := bank.next (.increment k)
    let down := bank.next (.decrement k)
    (bank.step (.increment k) = .ok (some (bank.valueAt w + 1), up) ∧
      up.step (.value k) = .ok (some (up.valueAt w), up) ∧
      (bank.valueAt w ≠ Counter.maximum → up.valueAt w = bank.valueAt w + 1) ∧
      (bank.valueAt w = Counter.maximum → up.valueAt w = -2147483648)) ∧
    (bank.step (.decrement k) = .ok (some (bank.valueAt w - 1), down) ∧
      down.step (.value k) = .ok (some (down.valueAt w), down) ∧
      (bank.valueAt w ≠ -2147483648 → down.valueAt w = bank.valueAt w - 1) ∧
      (bank.valueAt w = -2147483648 → down.valueAt w = Counter.maximum)) := by
  intro bank up down
  have hlaw := stepLaw bank
  have hup : up.valueAt w = (bank.wordAt w).increment.2.value := valueAt_next_increment inside
  have hdown : down.valueAt w = (bank.wordAt w).decrement.2.value := valueAt_next_decrement inside
  rw [Counter.value_increment] at hup
  rw [Counter.value_decrement] at hdown
  refine ⟨⟨(hlaw.counted k w inside).1.1, ?_, ?_, ?_⟩, (hlaw.counted k w inside).2.1.1, ?_, ?_, ?_⟩
  · exact step_value (hlaw.standing (.increment k) k w inside)
  · intro hroom
    exact hup.trans (if_neg hroom)
  · intro hfull
    exact hup.trans (if_pos hfull)
  · exact step_value (hlaw.standing (.decrement k) k w inside)
  · intro hroom
    exact hdown.trans (if_neg hroom)
  · intro hempty
    exact hdown.trans (if_pos hempty)

/-- One below the greatest value a counter still answers what it then shows. -/
theorem answers_greatest :
    let bank := (ofSizes [4]).after [.new (.finite 0) (.finite 0) (some 0),
      .set 0 (.finite 2147483646)]
    bank.spot? 0 = some ⟨0, 0⟩ ∧
      bank.step (.increment 0) = .ok (some 2147483647, bank.next (.increment 0)) ∧
      (bank.next (.increment 0)).valueAt ⟨0, 0⟩ = 2147483647 := by
  intro bank
  have hanswers := answers_unless_wrapping [4] [.new (.finite 0) (.finite 0) (some 0),
    .set 0 (.finite 2147483646)] 0 ⟨0, 0⟩ rfl
  exact ⟨rfl, hanswers.1.1, hanswers.1.2.2.1 (by decide)⟩

/-- Counting up from the greatest value answers an integer that no counter shows. -/
theorem answer_past_greatest :
    (( {} : CounterBank).run [.new (.finite 2147483647) (.finite 0) none, .increment 0,
      .value 0]).map Record.result =
        [.ok none, .ok (some 2147483648), .ok (some (-2147483648))] := rfl

end DeviceReports.CounterBank
