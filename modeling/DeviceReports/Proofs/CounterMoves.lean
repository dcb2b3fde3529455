import DeviceReports.Proofs.CounterWords

/-!
# Moves of counter banks

A step of a bank stores an integer in one word, raises one word by one or lowers it by one; or it
adds a counter, with a word of its own or without; or nothing happens, because the step only reads
or because it fails. These are all the moves there are, and each leaves every word but its own
alone. What a move does to its word is told up to multiples of 2^32.
-/

set_option autoImplicit false

namespace DeviceReports

/-- What a step does to a word. -/
inductive CounterEvent where
  | stored (spot : WordSpot) (n : Int)
  | raised (spot : WordSpot)
  | lowered (spot : WordSpot)
  | nothing
deriving DecidableEq

def CounterEvent.spot? : CounterEvent → Option WordSpot
  | .stored w _ | .raised w | .lowered w => some w
  | .nothing => none

namespace CounterBank

variable {b c : CounterBank} {e : CounterEvent} {w : WordSpot} {i k : Nat} {slot : Number}
  {buffer : WordBuffer}

/-! ### Steps -/

theorem step_value (inside : b.spot? k = some w) :
    b.step (.value k) = .ok (some (b.valueAt w), b) := by
  simp only [step, read_inside inside]
  rfl

theorem step_set (inside : b.spot? k = some w) (x : Number) :
    b.step (.set k x) = .ok (none, b.putWord w (Counter.ofNumber x)) := by
  simp only [step, write_inside inside]
  rfl

/-- Counting up answers the value before it plus one, whatever the word holds afterwards. -/
theorem step_increment (inside : b.spot? k = some w) :
    b.step (.increment k) =
      .ok (some (b.valueAt w + 1), b.putWord w (b.wordAt w).increment.2) := by
  simp only [step, read_inside inside, write_inside inside]
  rfl

theorem step_decrement (inside : b.spot? k = some w) :
    b.step (.decrement k) =
      .ok (some (b.valueAt w - 1), b.putWord w (b.wordAt w).decrement.2) := by
  simp only [step, read_inside inside, write_inside inside]
  rfl

/-- Through a counter that stands for no word every step fails. -/
theorem step_outside {s : CounterStep} (outside : b.spot? k = none)
    (through : s = .value k ∨ s = .increment k ∨ s = .decrement k ∨ ∃ x, s = .set k x) :
    ∃ failure, b.step s = .error failure := by
  obtain ⟨failure, hread⟩ := read_outside outside
  rcases through with rfl | rfl | rfl | ⟨x, rfl⟩
  · exact ⟨failure, by rw [step, hread]; rfl⟩
  · exact ⟨failure, by rw [step, hread]; rfl⟩
  · exact ⟨failure, by rw [step, hread]; rfl⟩
  · obtain ⟨failure, hwrite⟩ := write_outside outside (Counter.ofNumber x)
    exact ⟨failure, by rw [step, hwrite]; rfl⟩

/-- The bank with one counter more. -/
def attach (b : CounterBank) (p : CounterPlace) : CounterBank :=
  { b with places := b.places ++ [p] }

/-- The bank with a buffer of one word more. -/
def addWord (b : CounterBank) (i : Nat) (word : Counter) : CounterBank :=
  let fresh := WordBuffer.zeroed WordBuffer.wordBytes
  { b with buffers := b.buffers ++ [{ fresh with words := fresh.words.set i word }] }

theorem step_attach (there : b.buffers[i]? = some buffer)
    (whole : buffer.bytes % WordBuffer.wordBytes = 0) (x slot : Number) :
    b.step (.new x slot (some i)) = .ok (none, b.attach ⟨i, slot⟩) := by
  have hsize : WordBuffer.checkSize buffer.bytes = .ok () := by
    rw [WordBuffer.checkSize, if_pos whole]
  simp only [step, add, there, hsize]
  rfl

theorem step_fresh (inside : (WordBuffer.zeroed WordBuffer.wordBytes).index? slot = some i)
    (x : Number) :
    b.step (.new x slot none) =
      .ok (none, (b.addWord i (Counter.ofNumber x)).attach ⟨b.buffers.length, slot⟩) := by
  simp only [step, add, WordBuffer.write, inside]
  rfl

/-! ### Moves -/

/-- What an event leaves in the word that it is about. -/
inductive Writes (w : WordSpot) (old : Counter) : CounterEvent → Counter → Prop
  | stored (x : Number) : Writes w old (.stored w x.storedInt) (Counter.ofNumber x)
  | raised : Writes w old (.raised w) old.increment.2
  | lowered : Writes w old (.lowered w) old.decrement.2

/-- All that a step can do to a bank. -/
inductive Move (b : CounterBank) : CounterEvent → CounterBank → Prop
  | nothing : Move b .nothing b
  | attached (p : CounterPlace) : Move b .nothing (b.attach p)
  | made {i : Nat} (one : i < (WordBuffer.zeroed WordBuffer.wordBytes).words.length) (x : Number)
      (p : CounterPlace) : Move b (.stored ⟨b.buffers.length, i⟩ x.storedInt)
        ((b.addWord i (Counter.ofNumber x)).attach p)
  | written {w : WordSpot} {e : CounterEvent} {word : Counter} (there : b.Has w)
      (writes : Writes w (b.wordAt w) e word) : Move b e (b.putWord w word)

/-- What a step comes to: nothing where it only reads, attaches or fails. -/
def event (b : CounterBank) : CounterStep → CounterEvent
  | .new x slot none =>
    match (WordBuffer.zeroed WordBuffer.wordBytes).index? slot with
    | some i => .stored ⟨b.buffers.length, i⟩ x.storedInt
    | none => .nothing
  | .new _ _ (some _) | .value _ => .nothing
  | .increment k => (b.spot? k).elim .nothing .raised
  | .decrement k => (b.spot? k).elim .nothing .lowered
  | .set k x => (b.spot? k).elim .nothing (.stored · x.storedInt)

/-- The bank after a step; a step that fails leaves it. -/
def next (b : CounterBank) (s : CounterStep) : CounterBank :=
  match b.step s with
  | .ok (_, after) => after
  | .error _ => b

theorem next_of_ok {s : CounterStep} {answer : Option Int} (h : b.step s = .ok (answer, c)) :
    b.next s = c := by
  rw [next, h]

theorem next_of_error {s : CounterStep} (h : ∃ failure, b.step s = .error failure) :
    b.next s = b := by
  obtain ⟨failure, h⟩ := h
  rw [next, h]

theorem valueAt_next_increment (inside : b.spot? k = some w) :
    (b.next (.increment k)).valueAt w = (b.wordAt w).increment.2.value := by
  rw [next_of_ok (step_increment inside), valueAt_putWord_self (has_of_spot inside)]

theorem valueAt_next_decrement (inside : b.spot? k = some w) :
    (b.next (.decrement k)).valueAt w = (b.wordAt w).decrement.2.value := by
  rw [next_of_ok (step_decrement inside), valueAt_putWord_self (has_of_spot inside)]

theorem moves_new (b : CounterBank) (x slot : Number) (target : Option Nat) :
    Move b (b.event (.new x slot target)) (b.next (.new x slot target)) := by
  cases target with
  | none =>
    rcases hindex : (WordBuffer.zeroed WordBuffer.wordBytes).index? slot with _ | i
    · have hfails : ∃ failure, b.step (.new x slot none) = .error failure := by
        simp only [step, add, WordBuffer.write, hindex]
        exact ⟨_, rfl⟩
      rw [next_of_error hfails, event, hindex]
      exact .nothing
    · rw [next_of_ok (step_fresh hindex x), event, hindex]
      exact .made (index?_lt hindex) x _
  | some i =>
    rw [event]
    rcases hbuffer : b.buffers[i]? with _ | buffer
    · have hfails : ∃ failure, b.step (.new x slot (some i)) = .error failure := by
        simp only [step, add, hbuffer]
        exact ⟨_, rfl⟩
      rw [next_of_error hfails]
      exact .nothing
    · by_cases hwhole : buffer.bytes % WordBuffer.wordBytes = 0
      · rw [next_of_ok (step_attach hbuffer hwhole x slot)]
        exact .attached _
      · have hfails : ∃ failure, b.step (.new x slot (some i)) = .error failure := by
          simp only [step, add, hbuffer, WordBuffer.checkSize, if_neg hwhole]
          exact ⟨_, rfl⟩
        rw [next_of_error hfails]
        exact .nothing

/-- A step through a counter is nothing where the counter stands for no word. -/
theorem moves_through {s : CounterStep} {told : WordSpot → CounterEvent}
    (fails : b.spot? k = none → ∃ failure, b.step s = .error failure)
    (inside : ∀ w, b.spot? k = some w → Move b (told w) (b.next s)) :
    Move b ((b.spot? k).elim .nothing told) (b.next s) := by
  rcases hspot : b.spot? k with _ | w
  · rw [next_of_error (fails hspot)]
    exact .nothing
  · exact inside w hspot

/-- Every step is the move that its event tells. -/
theorem moves (b : CounterBank) (s : CounterStep) : Move b (b.event s) (b.next s) := by
  cases s with
  | new x slot target => exact moves_new b x slot target
  | value k =>
    rcases hspot : b.spot? k with _ | w
    · rw [next_of_error (step_outside hspot (by simp))]
      exact .nothing
    · rw [next_of_ok (step_value hspot)]
      exact .nothing
  | set k x =>
    refine moves_through (fun outside => step_outside outside (by simp)) fun w inside => ?_
    rw [next_of_ok (step_set inside x)]
    exact .written (has_of_spot inside) (.stored x)
  | increment k =>
    refine moves_through (fun outside => step_outside outside (by simp)) fun w inside => ?_
    rw [next_of_ok (step_increment inside)]
    exact .written (has_of_spot inside) .raised
  | decrement k =>
    refine moves_through (fun outside => step_outside outside (by simp)) fun w inside => ?_
    rw [next_of_ok (step_decrement inside)]
    exact .written (has_of_spot inside) .lowered

/-! ### What moves do to words -/

theorem Writes.spot? {old word : Counter} (writes : Writes w old e word) : e.spot? = some w := by
  cases writes <;> rfl

theorem wordAt_addWord_self (b : CounterBank)
    (one : i < (WordBuffer.zeroed WordBuffer.wordBytes).words.length) (word : Counter) :
    (b.addWord i word).wordAt ⟨b.buffers.length, i⟩ = word := by
  simp [wordAt, addWord, one]

theorem wordAt_addWord_ne (b : CounterBank) (word : Counter)
    (apart : w ≠ ⟨b.buffers.length, i⟩) : (b.addWord i word).wordAt w = b.wordAt w := by
  rcases Nat.lt_trichotomy w.buffer b.buffers.length with hlt | heq | hgt
  · simp [wordAt, addWord, List.getElem?_append_left hlt]
  · have hindex : i ≠ w.index := by
      intro hindex
      exact apart (by cases w; simp_all)
    simp only [wordAt, addWord, heq, List.getElem?_concat_length,
      List.getElem?_eq_none (Nat.le_refl _), List.getD_eq_getElem?_getD,
      List.getElem?_set_ne hindex, WordBuffer.zeroed, List.getElem?_replicate]
    split <;> rfl
  · have hnone : b.buffers[w.buffer]? = none := List.getElem?_eq_none (Nat.le_of_lt hgt)
    have hnone' : (b.addWord i word).buffers[w.buffer]? = none := by
      apply List.getElem?_eq_none
      simp only [addWord, List.length_append, List.length_singleton]
      omega
    simp only [wordAt, hnone, hnone']

/-- A move changes no word but its own. -/
theorem Move.wordAt_ne (move : Move b e c) (apart : e.spot? ≠ some w) :
    c.wordAt w = b.wordAt w := by
  cases move with
  | nothing => rfl
  | attached p => rfl
  | made one x p => exact wordAt_addWord_ne b _ fun h => apart (congrArg some h.symm)
  | written there writes =>
    exact wordAt_putWord_ne b _ fun h => apart (h ▸ writes.spot?)

/-- The times a word was raised among some events, less the times it was lowered. -/
def balance (w : WordSpot) (events : List CounterEvent) : Int :=
  events.count (.raised w) - events.count (.lowered w)

theorem balance_cons (w : WordSpot) (e : CounterEvent) (events : List CounterEvent) :
    balance w (e :: events) = balance w [e] + balance w events := by
  simp only [balance, List.count_cons, List.count_nil]
  push_cast
  omega

theorem balance_of_ne (apart : e.spot? ≠ some w) : balance w [e] = 0 := by
  have hraised : e ≠ .raised w := fun h => apart (h ▸ rfl)
  have hlowered : e ≠ .lowered w := fun h => apart (h ▸ rfl)
  simp [balance, hraised, hlowered]

theorem Writes.counted {old word : Counter} (writes : Writes w old e word)
    (unstored : ∀ n, e ≠ .stored w n) :
    word.value ≡ old.value + balance w [e] [ZMOD 2 ^ 32] := by
  cases writes with
  | stored x => exact absurd rfl (unstored _)
  | raised =>
    have hone : balance w [.raised w] = 1 := by simp [balance]
    rw [hone]
    exact old.value_increment_modEq
  | lowered =>
    have hone : balance w [.lowered w] = -1 := by simp [balance]
    rw [hone]
    exact old.value_decrement_modEq

/-- A word into which nothing is stored goes up and down with the counts on it. -/
theorem Move.counted (move : Move b e c) (unstored : ∀ n, e ≠ .stored w n) :
    c.valueAt w ≡ b.valueAt w + balance w [e] [ZMOD 2 ^ 32] := by
  by_cases hspot : e.spot? = some w
  · cases move with
    | nothing => cases hspot
    | attached p => cases hspot
    | made one x p =>
      exact absurd (congrArg (CounterEvent.stored · _) (Option.some.inj hspot)) (unstored _)
    | written there writes =>
      have hsame := Option.some.inj (writes.spot?.symm.trans hspot)
      subst hsame
      rw [valueAt_putWord_self there]
      exact writes.counted unstored
  · rw [valueAt, move.wordAt_ne hspot, balance_of_ne hspot, Int.add_zero]
    exact Int.ModEq.rfl

/-- A word into which an integer is stored shows that integer. -/
theorem Move.stored {n : Int} (move : Move b (.stored w n) c) :
    c.valueAt w ≡ n [ZMOD 2 ^ 32] := by
  cases move with
  | made one x p =>
    have hword := wordAt_addWord_self b one (Counter.ofNumber x)
    change ((b.addWord _ _).wordAt _).value ≡ _ [ZMOD 2 ^ 32]
    rw [hword]
    exact Counter.value_ofNumber_modEq x
  | written there writes =>
    cases writes with
    | stored x =>
      rw [valueAt_putWord_self there]
      exact Counter.value_ofNumber_modEq x

/-! ### What moves leave as it is -/

/-- A move leaves the buffers of other words as they are. -/
theorem Move.buffer_ne {j : Nat} (move : Move b e c) (there : j < b.buffers.length)
    (apart : ∀ w, e.spot? = some w → w.buffer ≠ j) : c.buffers[j]? = b.buffers[j]? := by
  cases move with
  | nothing => rfl
  | attached p => rfl
  | made one x p => exact List.getElem?_append_left there
  | written _ writes => simp [putWord, apart _ writes.spot?]

theorem index?_congr {other : WordBuffer} (same : other.words.length = buffer.words.length)
    (slot : Number) : other.index? slot = buffer.index? slot := by
  simp only [WordBuffer.index?, same]

/-- A counter goes on to stand for its word. -/
theorem Move.spot?_eq (move : Move b e c) (inside : b.spot? k = some w) : c.spot? k = some w := by
  obtain ⟨p, buffer, hplace, hindex, hsame⟩ := spot?_eq_some_iff.mp inside
  obtain ⟨hp, hbuffer⟩ := place_eq_ok_iff.mp hplace
  have hpbound := (List.getElem?_eq_some_iff.mp hp).1
  have hbbound := (List.getElem?_eq_some_iff.mp hbuffer).1
  suffices hkept : c.places[k]? = some p ∧ ∃ after, c.buffers[p.buffer]? = some after ∧
      after.words.length = buffer.words.length by
    obtain ⟨hplaces, after, hafter, hlength⟩ := hkept
    exact spot?_eq_some_iff.mpr ⟨p, after, place_eq_ok_iff.mpr ⟨hplaces, hafter⟩,
      (index?_congr hlength p.slot).trans hindex, hsame⟩
  cases move with
  | nothing => exact ⟨hp, buffer, hbuffer, rfl⟩
  | attached q => exact ⟨(List.getElem?_append_left hpbound).trans hp, buffer, hbuffer, rfl⟩
  | made one x q =>
    exact ⟨(List.getElem?_append_left hpbound).trans hp, buffer,
      (List.getElem?_append_left hbbound).trans hbuffer, rfl⟩
  | @written v _ word there writes =>
    refine ⟨hp, if v.buffer = p.buffer then { buffer with words := buffer.words.set v.index word }
      else buffer, ?_, ?_⟩
    · simp [putWord, List.getElem?_modify, hbuffer]
    · split <;> simp

end CounterBank

end DeviceReports
