import DeviceReports.Counter.Bank
import Mathlib.Data.Int.ModEq
import Mathlib.Data.List.Basic

/-!
# Words that counters stand for

A counter stands for one word of one buffer, as long as its slot lies inside that buffer; several
counters may stand for one word. Reading and writing through a counter is reading and writing that
word, and fails where there is none. A word keeps what is left of an integer modulo 2^32 in the
signed range; which of the congruent integers it shows follows from the range alone.
-/

set_option autoImplicit false

namespace DeviceReports

namespace Counter

theorem value_increment_bmod (c : Counter) :
    c.increment.2.value = (c.value + 1).bmod (2 ^ 32) := Int32.toInt_add c.word 1

theorem value_decrement_bmod (c : Counter) :
    c.decrement.2.value = (c.value - 1).bmod (2 ^ 32) := Int32.toInt_sub c.word 1

/-- Counting up adds one to every count but the greatest, which wraps to the least. -/
theorem value_increment (c : Counter) :
    c.increment.2.value = if c.value = maximum then -2147483648 else c.value + 1 := by
  have hlow : -2147483648 ≤ c.value := c.word.le_toInt
  have hhigh : c.value < 2147483648 := c.word.toInt_lt
  rw [value_increment_bmod]
  by_cases hfull : c.value = maximum
  · rw [if_pos hfull, hfull]
    rfl
  · have hroom : c.value ≠ 2147483647 := hfull
    rw [if_neg hfull, Int.bmod_eq_of_le (by omega) (by omega)]

/-- Counting down takes one off every count but the least, which wraps to the greatest. -/
theorem value_decrement (c : Counter) :
    c.decrement.2.value = if c.value = -2147483648 then (maximum : Int) else c.value - 1 := by
  have hlow : -2147483648 ≤ c.value := c.word.le_toInt
  have hhigh : c.value < 2147483648 := c.word.toInt_lt
  rw [value_decrement_bmod]
  by_cases hempty : c.value = -2147483648
  · rw [if_pos hempty, hempty]
    rfl
  · rw [if_neg hempty, Int.bmod_eq_of_le (by omega) (by omega)]

end Counter

/-- The integer that a store takes of a number: its whole part, and zero where it has none. -/
def Number.storedInt (x : Number) : Int := x.whole?.getD 0

/-- An integer is stored as it is. -/
@[simp] theorem Number.storedInt_intCast (n : Int) : (Number.finite (n : Rat)).storedInt = n := by
  simp [storedInt, whole?]

/-- An integer in the signed 32-bit range that is a given one modulo 2^32. -/
structure SignedWordOf (n v : Int) : Prop where
  least : -2 ^ 31 ≤ v
  most : v < 2 ^ 31
  same : v ≡ n [ZMOD 2 ^ 32]

/-- There is only one. -/
theorem SignedWordOf.iff_eq {n v : Int} (word : SignedWordOf n v) (u : Int) :
    SignedWordOf n u ↔ u = v := by
  constructor
  · intro other
    have hsame : u ≡ v [ZMOD 2 ^ 32] := other.same.trans word.same.symm
    have hu := other.least
    have hu' := other.most
    have hv := word.least
    have hv' := word.most
    unfold Int.ModEq at hsame
    omega
  · rintro rfl
    exact word

namespace Counter

theorem signedWordOf {c : Counter} {n : Int} (same : c.value ≡ n [ZMOD 2 ^ 32]) :
    SignedWordOf n c.value :=
  ⟨c.word.le_toInt, c.word.toInt_lt, same⟩

theorem value_ofNumber_modEq (x : Number) :
    (ofNumber x).value ≡ x.storedInt [ZMOD 2 ^ 32] := by
  have hword : x.word32 = Int32.ofInt x.storedInt := by
    cases x <;> rfl
  rw [ofNumber, value, hword, Int32.toInt_ofInt]
  exact Int.bmod_emod

theorem value_increment_modEq (c : Counter) :
    c.increment.2.value ≡ c.value + 1 [ZMOD 2 ^ 32] := by
  rw [value_increment_bmod]
  exact Int.bmod_emod

theorem value_decrement_modEq (c : Counter) :
    c.decrement.2.value ≡ c.value - 1 [ZMOD 2 ^ 32] := by
  rw [value_decrement_bmod]
  exact Int.bmod_emod

end Counter

/-- A word of a bank: its buffer, and its place in there. -/
structure WordSpot where
  buffer : Nat
  index : Nat
deriving DecidableEq

namespace CounterBank

variable {b : CounterBank} {w v : WordSpot} {p : CounterPlace} {i k : Nat} {slot : Number}
  {buffer : WordBuffer}

/-! ### Words -/

/-- The word that a counter stands for. -/
def spot? (b : CounterBank) (counter : Nat) : Option WordSpot :=
  match b.place counter with
  | .ok (p, buffer) => (buffer.index? p.slot).map (WordSpot.mk p.buffer)
  | .error _ => none

/-- A word of the bank; one that is not there counts as zero. -/
def wordAt (b : CounterBank) (w : WordSpot) : Counter :=
  match b.buffers[w.buffer]? with
  | some buffer => buffer.words.getD w.index ⟨0⟩
  | none => ⟨0⟩

def valueAt (b : CounterBank) (w : WordSpot) : Int := (b.wordAt w).value

def putWord (b : CounterBank) (w : WordSpot) (word : Counter) : CounterBank :=
  { b with
    buffers := b.buffers.modify w.buffer fun buffer =>
      { buffer with words := buffer.words.set w.index word } }

/-- Whether a word is there. -/
def Has (b : CounterBank) (w : WordSpot) : Prop :=
  ∃ buffer, b.buffers[w.buffer]? = some buffer ∧ w.index < buffer.words.length

theorem index?_lt (inside : buffer.index? slot = some i) : i < buffer.words.length := by
  rw [WordBuffer.index?] at inside
  split at inside
  · split_ifs at inside with hbounds
    cases inside
    exact hbounds.2
  · cases inside

theorem place_eq_ok_iff : b.place k = .ok (p, buffer) ↔
    b.places[k]? = some p ∧ b.buffers[p.buffer]? = some buffer := by
  rw [place]
  constructor
  · intro h
    split at h
    · cases h
    · next q hq =>
      split at h
      · next found hfound =>
        cases h
        exact ⟨hq, hfound⟩
      · cases h
  · rintro ⟨hplace, hbuffer⟩
    simp only [hplace, hbuffer]

theorem spot?_eq_some_iff : b.spot? k = some w ↔ ∃ p buffer, b.place k = .ok (p, buffer) ∧
    buffer.index? p.slot = some w.index ∧ p.buffer = w.buffer := by
  rw [spot?]
  constructor
  · intro h
    rcases hplace : b.place k with failure | ⟨p, buffer⟩ <;> rw [hplace] at h
    · cases h
    · obtain ⟨i, hi, rfl⟩ := Option.map_eq_some_iff.mp h
      exact ⟨p, buffer, rfl, hi, rfl⟩
  · rintro ⟨p, buffer, hplace, hindex, hsame⟩
    simp [hplace, hindex, hsame]

theorem has_of_spot (inside : b.spot? k = some w) : b.Has w := by
  obtain ⟨p, buffer, hplace, hindex, hsame⟩ := spot?_eq_some_iff.mp inside
  exact ⟨buffer, hsame ▸ (place_eq_ok_iff.mp hplace).2, index?_lt hindex⟩

theorem wordAt_putWord_self (there : b.Has w) (word : Counter) :
    (b.putWord w word).wordAt w = word := by
  obtain ⟨buffer, hbuffer, hindex⟩ := there
  simp [wordAt, putWord, hbuffer, hindex]

theorem valueAt_putWord_self (there : b.Has w) (word : Counter) :
    (b.putWord w word).valueAt w = word.value := by
  rw [valueAt, wordAt_putWord_self there]

theorem wordAt_putWord_ne (b : CounterBank) (word : Counter) (apart : w ≠ v) :
    (b.putWord w word).wordAt v = b.wordAt v := by
  by_cases hbuffer : w.buffer = v.buffer
  · have hindex : w.index ≠ v.index := by
      intro hindex
      exact apart (by cases w; cases v; simp_all)
    rcases hold : b.buffers[v.buffer]? with _ | buffer
    · simp [wordAt, putWord, hbuffer, hold]
    · simp [wordAt, putWord, hbuffer, hold, List.getElem?_set_ne hindex]
  · simp [wordAt, putWord, hbuffer]

/-! ### Reading and writing through counters -/

theorem read_of_place (hplace : b.place k = .ok (p, buffer)) : b.read k = buffer.read p.slot := by
  rw [read, hplace]
  rfl

theorem write_of_place (hplace : b.place k = .ok (p, buffer)) (word : Counter) :
    b.write k word = (buffer.write p.slot word).map fun after =>
      { b with buffers := b.buffers.set p.buffer after } := by
  rw [write, hplace]
  rfl

theorem read_inside (inside : b.spot? k = some w) : b.read k = .ok (b.wordAt w) := by
  obtain ⟨p, buffer, hplace, hindex, hsame⟩ := spot?_eq_some_iff.mp inside
  have hword : b.wordAt w = buffer.words.getD w.index ⟨0⟩ := by
    rw [wordAt, ← hsame, (place_eq_ok_iff.mp hplace).2]
  rw [read_of_place hplace, WordBuffer.read, hindex, hword]

theorem write_inside (inside : b.spot? k = some w) (word : Counter) :
    b.write k word = .ok (b.putWord w word) := by
  obtain ⟨p, buffer, hplace, hindex, hsame⟩ := spot?_eq_some_iff.mp inside
  obtain ⟨hlt, hbuffer⟩ := List.getElem?_eq_some_iff.mp (place_eq_ok_iff.mp hplace).2
  have hset : (b.putWord w word).buffers =
      b.buffers.set p.buffer { buffer with words := buffer.words.set w.index word } := by
    rw [putWord, ← hsame, List.modify_eq_set_getElem?, List.getElem?_eq_getElem hlt, hbuffer]
    rfl
  rw [write_of_place hplace, WordBuffer.write, hindex]
  exact congrArg (fun buffers => Except.ok (⟨buffers, b.places⟩ : CounterBank)) hset.symm

theorem outside_cases (outside : b.spot? k = none) : (∃ failure, b.place k = .error failure) ∨
    ∃ p buffer, b.place k = .ok (p, buffer) ∧ buffer.index? p.slot = none := by
  rw [spot?] at outside
  rcases hplace : b.place k with failure | ⟨p, buffer⟩ <;> rw [hplace] at outside
  · exact Or.inl ⟨failure, rfl⟩
  · exact Or.inr ⟨p, buffer, rfl, Option.map_eq_none_iff.mp outside⟩

theorem read_outside (outside : b.spot? k = none) : ∃ failure, b.read k = .error failure := by
  rcases outside_cases outside with ⟨failure, hplace⟩ | ⟨p, buffer, hplace, hindex⟩
  · exact ⟨failure, by rw [read, hplace]; rfl⟩
  · exact ⟨_, by rw [read_of_place hplace, WordBuffer.read, hindex]⟩

theorem write_outside (outside : b.spot? k = none) (word : Counter) :
    ∃ failure, b.write k word = .error failure := by
  rcases outside_cases outside with ⟨failure, hplace⟩ | ⟨p, buffer, hplace, hindex⟩
  · exact ⟨failure, by rw [write, hplace]; rfl⟩
  · exact ⟨_, by rw [write_of_place hplace, WordBuffer.write, hindex]; rfl⟩

end CounterBank

end DeviceReports
