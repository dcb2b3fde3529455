import DeviceReports.Proofs.Counts
import DeviceReports.Proofs.Outcomes
import DeviceReports.Report.Buffer
import Mathlib.Tactic.Ring

/-!
# What a buffer holds

A buffer of whole capacity is a plain prefix: after any prints it is the buffer that took
all their bytes in one piece. Its storage is part of that equation. Each print returns: it
finds the storage by doubling, copies the content over and writes behind it, and because
doubling in several goes ends where doubling in one go does, nothing tells how the bytes came
in. Capacities that are no whole number are not covered here.
-/

set_option autoImplicit false

namespace DeviceReports

open Text (Bytes)

namespace Number

theorem ofCount_inj {a b : Nat} : ofCount a = ofCount b ↔ a = b := by
  simp [ofCount]

@[simp] theorem exactSum_ofCount (a b : Nat) :
    (ofCount a).exactSum (ofCount b) = ofCount (a + b) := by
  change finite _ = finite _
  rw [Nat.cast_add]

theorem exactDifference_ofCount {a b : Nat} (h : b ≤ a) :
    (ofCount a).exactDifference (ofCount b) = ofCount (a - b) := by
  change finite _ = finite _
  rw [Nat.cast_sub h, sub_eq_add_neg]

@[simp] theorem lesser_ofCount (a b : Nat) :
    (ofCount a).lesser (ofCount b) = ofCount (min a b) := by
  change (if ofCount a ≤ ofCount b then ofCount a else ofCount b) = _
  by_cases h : a ≤ b
  · rw [if_pos (ofCount_le_ofCount.mpr h), Nat.min_eq_left h]
  · rw [if_neg (mt ofCount_le_ofCount.mp h), Nat.min_eq_right (Nat.le_of_not_le h)]

theorem position_le (x : Number) (size : Nat) : x.position size ≤ size := by
  rw [position]
  split
  · split <;> omega
  · split <;> omega

end Number

namespace ReportBuffer

/-- The buffer that a print leaves. -/
def printed (b : ReportBuffer) (t : Text) : ReportBuffer := ((print t).outcome b).2

/-- The buffer that prints leave, one after the other. -/
def printAll (b : ReportBuffer) (ts : List Text) : ReportBuffer := ts.foldl printed b

/-! ### Doubling -/

/-- The loop that doubles `n` while it is below `size` makes `rounds` rounds and ends. -/
def DoublesIn (size : Rat) (n rounds : Nat) : Prop :=
  size ≤ (2 ^ rounds * n : Nat) ∧ ∀ i, i < rounds → ((2 ^ i * n : Nat) : Rat) < size

section Doubling

variable {size : Rat} {n : Nat}

theorem doubledTo?_of_le (h : size ≤ n) : doubledTo? size n = some n := by
  rw [doubledTo?, if_pos h]

theorem doubledTo?_of_lt (pos : 0 < n) (h : ¬ size ≤ n) :
    doubledTo? size n = doubledTo? size (2 * n) := by
  rw [doubledTo?, if_neg h, if_neg (Nat.ne_of_gt pos)]

/-- Zero is doubled for ever. -/
theorem doubledTo?_zero (h : 0 < size) : doubledTo? size 0 = none := by
  rw [doubledTo?, if_neg (by simpa using h), if_pos rfl]

theorem doubledTo?_rounds (size : Rat) (pos : 0 < n) :
    ∃ rounds, DoublesIn size n rounds ∧ doubledTo? size n = some (2 ^ rounds * n) := by
  induction n using doubledTo?.induct size with
  | case1 n h =>
    refine ⟨0, ⟨?_, fun i hi => absurd hi (Nat.not_lt_zero i)⟩, ?_⟩
    · simpa using h
    · rw [doubledTo?_of_le h, Nat.pow_zero, Nat.one_mul]
  | case2 h => omega
  | case3 n h hn ih =>
    obtain ⟨rounds, ⟨hstop, hgo⟩, heq⟩ := ih (by omega)
    have hstep (i : Nat) : 2 ^ (i + 1) * n = 2 ^ i * (2 * n) := by ring
    refine ⟨rounds + 1, ⟨by rw [hstep]; exact hstop, ?_⟩, ?_⟩
    · intro i hi
      cases i with
      | zero => simpa using h
      | succ i => rw [hstep]; exact hgo i (by omega)
    · rw [doubledTo?_of_lt pos h, heq, hstep]

/-- Doubling up to a size and then up to a larger one is doubling up to the larger one. -/
theorem doubledTo?_doubledTo? {first second : Rat} {reached : Nat} (h : first ≤ second)
    (pos : 0 < n) (reaches : doubledTo? first n = some reached) :
    doubledTo? second reached = doubledTo? second n := by
  induction n using doubledTo?.induct first with
  | case1 n hstop =>
    rw [doubledTo?_of_le hstop] at reaches
    rw [Option.some.inj reaches]
  | case2 hgo => omega
  | case3 n hgo hn ih =>
    rw [doubledTo?_of_lt pos hgo] at reaches
    have hmore : ¬ second ≤ n := fun hle => hgo (h.trans hle)
    rw [ih (by omega) reaches, doubledTo?_of_lt pos hmore]

theorem self_le_of_doubledTo? {reached : Nat} (reaches : doubledTo? size n = some reached) :
    n ≤ reached := by
  induction n using doubledTo?.induct size with
  | case1 n h => rw [Option.some.inj ((doubledTo?_of_le h).symm.trans reaches)]
  | case2 h =>
    rw [doubledTo?, if_neg h, if_pos rfl] at reaches
    cases reaches
  | case3 n h hn ih =>
    rw [doubledTo?_of_lt (Nat.pos_of_ne_zero hn) h] at reaches
    have := ih reaches
    omega

end Doubling

/-! ### The size of the storage -/

/-- The storage of a buffer that has come to hold `size` bytes. -/
def storageFor (capacity size : Nat) : Nat :=
  if size ≤ min capacity initialBytes then min capacity initialBytes
  else
    match doubledTo? size (min capacity initialBytes) with
    | some reached => min reached capacity
    | none => 0

/-- A size that the first storage has no room for is reached by doubling it. -/
theorem storageFor_of_lt {capacity size : Nat} (more : min capacity initialBytes < size)
    (fits : size ≤ capacity) : ∃ reached, doubledTo? size initialBytes = some reached ∧
      size ≤ reached ∧ storageFor capacity size = min reached capacity := by
  have hinit : min capacity initialBytes = initialBytes := by omega
  obtain ⟨rounds, ⟨hstop, -⟩, heq⟩ : ∃ rounds, DoublesIn size initialBytes rounds ∧
      doubledTo? size initialBytes = some (2 ^ rounds * initialBytes) :=
    doubledTo?_rounds _ (by decide)
  refine ⟨2 ^ rounds * initialBytes, heq, by exact_mod_cast hstop, ?_⟩
  rw [storageFor, if_neg (by omega), hinit, heq]

theorem storageFor_of_le {capacity size : Nat} (h : size ≤ min capacity initialBytes) :
    storageFor capacity size = min capacity initialBytes := if_pos h

theorem storageFor_bounds {capacity size : Nat} (fits : size ≤ capacity) :
    size ≤ storageFor capacity size ∧ storageFor capacity size ≤ capacity ∧
      min capacity initialBytes ≤ storageFor capacity size := by
  by_cases hfirst : size ≤ min capacity initialBytes
  · rw [storageFor_of_le hfirst]
    omega
  · obtain ⟨reached, hreached, hsize, hstorage⟩ := storageFor_of_lt (Nat.lt_of_not_le hfirst) fits
    have hself := self_le_of_doubledTo? hreached
    rw [hstorage]
    omega

/-- Storage depends on the size reached alone, not on the sizes before it. -/
theorem storageFor_grows {capacity first second : Nat} (h : first ≤ second)
    (fits : second ≤ capacity) (short : storageFor capacity first < second) :
    ∃ reached, doubledTo? second (storageFor capacity first) = some reached ∧
      second ≤ reached ∧ storageFor capacity second = min reached capacity := by
  obtain ⟨-, -, hinitial⟩ := storageFor_bounds (h.trans fits)
  obtain ⟨reached, hreached, hsize, hstorage⟩ :=
    storageFor_of_lt (Nat.lt_of_le_of_lt hinitial short) fits
  refine ⟨reached, ?_, hsize, hstorage⟩
  by_cases hfirst : first ≤ min capacity initialBytes
  · have hinit : min capacity initialBytes = initialBytes := by
      rw [storageFor_of_le hfirst] at short
      omega
    rw [storageFor_of_le hfirst, hinit, hreached]
  · obtain ⟨before, hbefore, -, hheld⟩ :=
      storageFor_of_lt (Nat.lt_of_not_le hfirst) (h.trans fits)
    have hwhole : min before capacity = before := by omega
    rw [hheld, hwhole, doubledTo?_doubledTo? (by exact_mod_cast h) (by decide) hbefore, hreached]

/-- A storage that has room for a later size is what that size needs. -/
theorem storageFor_keeps {capacity first second : Nat} (h : first ≤ second)
    (fits : second ≤ capacity) (roomy : second ≤ storageFor capacity first) :
    storageFor capacity second = storageFor capacity first := by
  by_cases hsecond : second ≤ min capacity initialBytes
  · rw [storageFor_of_le hsecond, storageFor_of_le (h.trans hsecond)]
  · have hfirst : ¬ first ≤ min capacity initialBytes := fun hle => by
      rw [storageFor_of_le hle] at roomy
      exact hsecond roomy
    obtain ⟨before, hbefore, -, hheld⟩ :=
      storageFor_of_lt (Nat.lt_of_not_le hfirst) (h.trans fits)
    obtain ⟨reached, hreached, -, hstorage⟩ := storageFor_of_lt (Nat.lt_of_not_le hsecond) fits
    have hsame : doubledTo? second before = some reached :=
      (doubledTo?_doubledTo? (by exact_mod_cast h) (by decide) hbefore).trans hreached
    rw [hheld] at roomy
    have hstop : (second : Rat) ≤ before := by exact_mod_cast roomy.trans (Nat.min_le_left _ _)
    rw [doubledTo?_of_le hstop] at hsame
    rw [hstorage, hheld, Option.some.inj hsame]

/-! ### The storage itself -/

/-- A storage of some size with a content in front and zeros behind it. -/
def stored (content : Bytes) (size : Nat) : Array UInt8 :=
  (content ++ List.replicate (size - content.length) 0).toArray

theorem size_stored {content : Bytes} {size : Nat} (fits : content.length ≤ size) :
    (stored content size).size = size := by
  simp [stored]
  omega

theorem stored_nil (size : Nat) : stored [] size = Array.replicate size 0 := by
  simp [stored]

theorem allocate_of_whole {size : Number} {n : Nat} (whole : size.whole? = some (n : Int)) :
    allocate size = .ok (Array.replicate n 0) := by
  rw [allocate, whole]
  dsimp only
  rw [if_neg (by omega), Int.toNat_natCast]

theorem allocate_ofCount (n : Nat) : allocate (.ofCount n) = .ok (Array.replicate n 0) :=
  allocate_of_whole (Number.whole?_ofCount n)

/-- Bytes within a storage are written over those that stood there. -/
theorem store_within {storage : Array UInt8} {offset : Number} {n : Nat} {bytes : Bytes}
    (place : offset.whole? = some (n : Int)) (fits : n + bytes.length ≤ storage.size) :
    store storage offset bytes =
      .ok (storage.toList.take n ++ bytes ++ storage.toList.drop (n + bytes.length)).toArray := by
  rw [store, place]
  dsimp only
  rw [if_neg (by omega), Int.toNat_natCast]
  congr 1
  apply Array.ext'
  rw [Array.toList_append, Array.toList_append, Array.toList_extract, Array.toList_extract,
    List.extract_eq_take_drop, List.extract_eq_take_drop, ← Array.length_toList, List.drop_zero,
    Nat.sub_zero]
  congr 1
  exact List.take_of_length_le (by rw [List.length_drop])

theorem exists_store {storage : Array UInt8} {offset : Number} {n : Nat} {bytes : Bytes}
    (place : offset.whole? = some (n : Int)) (fits : n + bytes.length ≤ storage.size) :
    ∃ after, store storage offset bytes = .ok after ∧ after.size = storage.size := by
  refine ⟨_, store_within place fits, ?_⟩
  rw [List.size_toArray, List.length_append, List.length_append, List.length_take,
    List.length_drop, Array.length_toList]
  omega

/-- Bytes that are written behind a content lengthen it. -/
theorem store_stored {content more : Bytes} {size : Nat} {offset : Number}
    (place : offset.whole? = some (content.length : Int))
    (fits : content.length + more.length ≤ size) :
    store (stored content size) offset more = .ok (stored (content ++ more) size) := by
  rw [store_within place (by rw [size_stored (by omega)]; exact fits)]
  congr 2
  have hzeros : size - content.length - more.length = size - (content ++ more).length := by
    rw [List.length_append]
    omega
  simp [stored, List.drop_append, hzeros]

variable {b : ReportBuffer}

theorem size_le_reserved (b : ReportBuffer) : b.size ≤ b.reserved := Number.position_le _ _

theorem length_content (b : ReportBuffer) : b.content.toList.length = b.size := by
  have := b.size_le_reserved
  unfold reserved at this
  rw [Array.length_toList, content, Array.size_extract]
  omega

theorem reserve_of_le {size : Number} (roomy : size ≤ .ofCount b.reserved) :
    (reserve size).outcome b = (.ok (), b) := by
  unfold reserved at roomy
  rw [reserve, Effect.outcome_bind_ok (Effect.outcome_get b), if_pos roomy]
  rfl

/-- A storage that can be doubled for ever is. -/
theorem reserve_endless {size : Number} (short : ¬ size ≤ .ofCount b.reserved)
    (doubles : doubled? size b.reserved = none) :
    (reserve size).outcome b = (.error .endless, b) := by
  unfold reserved at short doubles
  rw [reserve, Effect.outcome_bind_ok (Effect.outcome_get b), if_neg short, doubles]
  rfl

/-- A storage that is too small is replaced by a larger one, and the content is copied over. -/
theorem reserve_grown {size : Number} {reached grown : Nat} (short : ¬ size ≤ .ofCount b.reserved)
    (doubles : doubled? size b.reserved = some reached)
    (allocates : allocate ((Number.ofCount reached).lesser b.capacity) =
      .ok (Array.replicate grown 0)) (fits : b.size ≤ grown) :
    (reserve size).outcome b = (.ok (), { b with bytes := stored b.content.toList grown }) := by
  have hcopied : store (Array.replicate grown 0) (.ofCount 0) b.content.toList =
      .ok (stored b.content.toList grown) := by
    rw [← stored_nil]
    exact store_stored (Number.whole?_ofCount 0) (by rw [length_content]; simpa using fits)
  unfold reserved at short doubles
  rw [reserve, Effect.outcome_bind_ok (Effect.outcome_get b), if_neg short, doubles]
  dsimp only
  rw [allocates, Effect.outcome_bind_ok (Process.outcome_ofExcept _ _), hcopied,
    Effect.outcome_bind_ok (Process.outcome_ofExcept _ _)]
  rfl

/-- The buffer that has taken note of bytes that are to be printed. -/
def announced (b : ReportBuffer) (count : Nat) : ReportBuffer :=
  { b with truncated := b.truncated || decide (b.room < .ofCount count) }

/-- As many of some bytes as a buffer takes: all of them, or what it has room for. -/
def takes (b : ReportBuffer) (count : Nat) : Number := b.room.lesser (.ofCount count)

/-- A print that takes nothing leaves the storage alone. -/
theorem append_nothing {encoded : Bytes} (nothing : b.takes encoded.length = .ofCount 0) :
    (append encoded).outcome b = (.ok (), b.announced encoded.length) := by
  have hannounce : (announce encoded.length).outcome b = (.ok (), b.announced encoded.length) := rfl
  have htakes : (b.announced encoded.length).room.lesser (.ofCount encoded.length) = .ofCount 0 :=
    nothing
  rw [append, Effect.outcome_bind_ok hannounce, Effect.outcome_bind_ok (Effect.outcome_get _)]
  dsimp only
  rw [if_pos htakes]
  rfl

/-- A print that takes something provides storage, writes and moves the length. -/
theorem append_something {encoded : Bytes} {roomy : ReportBuffer} {bytes : Array UInt8}
    (something : b.takes encoded.length ≠ .ofCount 0)
    (reserved : (reserve (b.length.exactSum (b.takes encoded.length))).outcome
      (b.announced encoded.length) = (.ok (), roomy))
    (written : store roomy.bytes roomy.length
      (encoded.take ((b.takes encoded.length).position encoded.length)) = .ok bytes) :
    (append encoded).outcome b =
      (.ok (), { roomy with bytes, length := roomy.length.exactSum (b.takes encoded.length) }) := by
  have hannounce : (announce encoded.length).outcome b = (.ok (), b.announced encoded.length) := rfl
  have hwrite : (write (encoded.take ((b.takes encoded.length).position encoded.length))).outcome
      roomy = (.ok (), { roomy with bytes }) := by
    rw [write, Effect.outcome_bind_ok (Effect.outcome_get _), written,
      Effect.outcome_bind_ok (Process.outcome_ofExcept _ _)]
    rfl
  rw [append, Effect.outcome_bind_ok hannounce, Effect.outcome_bind_ok (Effect.outcome_get _)]
  dsimp only
  have hgoes : (b.announced encoded.length).room.lesser (.ofCount encoded.length) ≠ .ofCount 0 :=
    something
  rw [if_neg hgoes]
  exact (Effect.outcome_bind_ok reserved _).trans (Effect.outcome_bind_ok hwrite _)

/-- Where no storage is found, the print does not return. -/
theorem append_endless {encoded : Bytes} (something : b.takes encoded.length ≠ .ofCount 0)
    (endless : (reserve (b.length.exactSum (b.takes encoded.length))).outcome
      (b.announced encoded.length) = (.error .endless, b.announced encoded.length)) :
    (append encoded).outcome b = (.error .endless, b.announced encoded.length) := by
  have hannounce : (announce encoded.length).outcome b = (.ok (), b.announced encoded.length) := rfl
  have hgoes : (b.announced encoded.length).room.lesser (.ofCount encoded.length) ≠ .ofCount 0 :=
    something
  rw [append, Effect.outcome_bind_ok hannounce, Effect.outcome_bind_ok (Effect.outcome_get _)]
  dsimp only
  rw [if_neg hgoes]
  exact Effect.outcome_bind_error endless _

/-! ### Appending in pieces -/

/-- The buffer of whole capacity that has been given `all`. -/
def holding (limit : Number) (capacity : Nat) (all : Bytes) : ReportBuffer where
  limit
  capacity := .ofCount capacity
  bytes := stored (all.take capacity) (storageFor capacity (min all.length capacity))
  length := .ofCount (min all.length capacity)
  truncated := decide (capacity < all.length)

section Holding

variable (limit : Number) (capacity : Nat) (all more : Bytes)

theorem new_eq_holding : new limit capacity = holding limit capacity [] := by
  have hstorage : storageFor capacity 0 = min capacity initialBytes :=
    storageFor_of_le (Nat.zero_le _)
  simp [new, holding, hstorage, stored_nil]

theorem length_kept : (all.take capacity).length = min all.length capacity := by
  rw [List.length_take, Nat.min_comm]

theorem reserved_holding : (holding limit capacity all).reserved =
    storageFor capacity (min all.length capacity) := by
  refine size_stored ?_
  rw [length_kept]
  exact (storageFor_bounds (Nat.min_le_right _ _)).1

theorem size_holding : (holding limit capacity all).size = min all.length capacity := by
  have hreserved := reserved_holding limit capacity all
  have hfits := (storageFor_bounds (Nat.min_le_right all.length capacity)).1
  unfold reserved at hreserved
  rw [size, hreserved, holding, Number.position_ofCount, Nat.min_eq_left hfits]

theorem content_holding : (holding limit capacity all).content.toList = all.take capacity := by
  rw [content, size_holding, Array.toList_extract, holding, stored, List.extract_eq_take_drop]
  simp [List.take_append]

theorem room_holding : (holding limit capacity all).room =
    .ofCount (capacity - min all.length capacity) :=
  Number.exactDifference_ofCount (Nat.min_le_right _ _)

theorem takes_holding : (holding limit capacity all).takes more.length =
    .ofCount (min (capacity - min all.length capacity) more.length) := by
  rw [takes, room_holding, Number.lesser_ofCount]

/-- The storage that a further piece finds. -/
theorem reserve_holding :
    (reserve (.ofCount (min (all ++ more).length capacity))).outcome
        ((holding limit capacity all).announced more.length) =
      (.ok (), { (holding limit capacity all).announced more.length with
        bytes := stored (all.take capacity)
          (storageFor capacity (min (all ++ more).length capacity)) }) := by
  have hreserved : ((holding limit capacity all).announced more.length).reserved = _ :=
    reserved_holding limit capacity all
  have hsize : ((holding limit capacity all).announced more.length).size = _ :=
    size_holding limit capacity all
  have hcontent : ((holding limit capacity all).announced more.length).content.toList = _ :=
    content_holding limit capacity all
  have hlater : min all.length capacity ≤ min (all ++ more).length capacity := by
    rw [List.length_append]
    omega
  have hfits := storageFor_bounds (Nat.min_le_right (all ++ more).length capacity)
  by_cases hroomy : min (all ++ more).length capacity ≤
      storageFor capacity (min all.length capacity)
  · rw [reserve_of_le (by rw [hreserved]; exact Number.ofCount_le_ofCount.mpr hroomy),
      storageFor_keeps hlater (Nat.min_le_right _ _) hroomy]
    rfl
  · obtain ⟨reached, hdoubles, -, hstorage⟩ :=
      storageFor_grows hlater (Nat.min_le_right _ _) (Nat.lt_of_not_le hroomy)
    have hallocates : allocate ((Number.ofCount reached).lesser
        ((holding limit capacity all).announced more.length).capacity) =
          .ok (Array.replicate (storageFor capacity (min (all ++ more).length capacity)) 0) := by
      rw [hstorage, ← allocate_ofCount, ← Number.lesser_ofCount]
      rfl
    rw [reserve_grown (by rw [hreserved]; exact mt Number.ofCount_le_ofCount.mp hroomy)
      (by rw [hreserved]; exact hdoubles) hallocates (by rw [hsize]; omega), hcontent]

/-- What of a further piece belongs to the content is written behind it. -/
theorem store_holding :
    store (stored (all.take capacity) (storageFor capacity (min (all ++ more).length capacity)))
      (holding limit capacity all).length
      (more.take (((holding limit capacity all).takes more.length).position more.length)) =
    .ok (stored ((all ++ more).take capacity)
      (storageFor capacity (min (all ++ more).length capacity))) := by
  have hlength : (all ++ more).length = all.length + more.length := List.length_append
  have hfits := storageFor_bounds (Nat.min_le_right (all ++ more).length capacity)
  have hkept : (all ++ more).take capacity =
      all.take capacity ++ more.take (min (capacity - min all.length capacity) more.length) := by
    rw [List.take_append, List.append_cancel_left_eq, List.take_eq_take_iff]
    omega
  rw [takes_holding, Number.position_ofCount, Nat.min_assoc, Nat.min_self, hkept]
  refine store_stored ?_ ?_
  · rw [length_kept]
    exact Number.whole?_ofCount _
  · rw [length_kept, List.length_take]
    omega

theorem append_holding : (append more).outcome (holding limit capacity all) =
    (.ok (), holding limit capacity (all ++ more)) := by
  have hlength : (all ++ more).length = all.length + more.length := List.length_append
  have htakes := takes_holding limit capacity all more
  have hdropped : ((holding limit capacity all).announced more.length).truncated =
      decide (capacity < (all ++ more).length) := by
    change (decide (capacity < all.length) ||
      decide ((holding limit capacity all).room < .ofCount more.length)) = _
    rw [room_holding, ← Bool.decide_or, decide_eq_decide, Number.ofCount_lt_ofCount]
    omega
  have hsum : min all.length capacity + min (capacity - min all.length capacity) more.length =
      min (all ++ more).length capacity := by omega
  have hgoal : holding limit capacity (all ++ more) =
      { (holding limit capacity all).announced more.length with
        bytes := stored ((all ++ more).take capacity)
          (storageFor capacity (min (all ++ more).length capacity))
        length := .ofCount (min (all ++ more).length capacity) } := by
    rw [holding, ← hdropped]
    rfl
  rw [hgoal]
  by_cases hnothing : min (capacity - min all.length capacity) more.length = 0
  · have hsize : min (all ++ more).length capacity = min all.length capacity := by omega
    have hkept : (all ++ more).take capacity = all.take capacity := by
      rcases (by omega : capacity ≤ all.length ∨ more.length = 0) with hfull | hempty
      · exact List.take_append_of_le_length hfull
      · rw [List.length_eq_zero_iff.mp hempty, List.append_nil]
    rw [append_nothing (by rw [htakes, hnothing]), hsize, hkept]
    rfl
  · have hlater : (holding limit capacity all).length.exactSum
        ((holding limit capacity all).takes more.length) =
          .ofCount (min (all ++ more).length capacity) := by
      rw [htakes, holding, Number.exactSum_ofCount, hsum]
    rw [append_something (by rw [htakes]; exact mt Number.ofCount_inj.mp hnothing)
      (by rw [hlater]; exact reserve_holding limit capacity all more)
      (store_holding limit capacity all more)]
    dsimp only [announced]
    rw [hlater]

/-- The prints of a buffer of whole capacity return, one after the other. -/
theorem prints_holding (ts : List Text) : (ts.forM print).outcome (holding limit capacity all) =
    (.ok (), holding limit capacity (all ++ ts.flatMap Text.encode)) := by
  induction ts generalizing all with
  | nil =>
    rw [List.flatMap_nil, List.append_nil]
    rfl
  | cons t rest ih =>
    have hprint : (print t).outcome (holding limit capacity all) = _ :=
      append_holding limit capacity all t.encode
    change (print t >>= fun _ => rest.forM print).outcome _ = _
    rw [Effect.outcome_bind_ok hprint, ih, List.flatMap_cons, List.append_assoc]

theorem printed_holding (t : Text) : (holding limit capacity all).printed t =
    holding limit capacity (all ++ t.encode) := by
  rw [printed, print, append_holding]

theorem printAll_holding (ts : List Text) : (holding limit capacity all).printAll ts =
    holding limit capacity (all ++ ts.flatMap Text.encode) := by
  induction ts generalizing all with
  | nil => simp [printAll]
  | cons t rest ih =>
    change ((holding limit capacity all).printed t).printAll rest = _
    rw [printed_holding, ih, List.flatMap_cons, List.append_assoc]

theorem printAll_new (ts : List Text) :
    (new limit capacity).printAll ts = holding limit capacity (ts.flatMap Text.encode) := by
  rw [new_eq_holding, printAll_holding, List.nil_append]

/-- The next piece makes the loop stop: there is always something to double. -/
theorem grown_holding : ∃ rounds,
    DoublesIn ((holding limit capacity (all ++ more)).size : Nat)
      (holding limit capacity all).reserved rounds ∧
    (holding limit capacity (all ++ more)).reserved =
      min (2 ^ rounds * (holding limit capacity all).reserved) capacity := by
  have hlater : min all.length capacity ≤ min (all ++ more).length capacity := by
    rw [List.length_append]
    omega
  have hbounds := storageFor_bounds (Nat.min_le_right all.length capacity)
  rw [size_holding, reserved_holding, reserved_holding]
  by_cases hroomy : min (all ++ more).length capacity ≤
      storageFor capacity (min all.length capacity)
  · refine ⟨0, ⟨?_, fun i hi => absurd hi (Nat.not_lt_zero i)⟩, ?_⟩
    · rw [Nat.pow_zero, Nat.one_mul]
      exact_mod_cast hroomy
    · rw [storageFor_keeps hlater (Nat.min_le_right _ _) hroomy]
      omega
  · obtain ⟨reached, hreached, -, hstorage⟩ :=
      storageFor_grows hlater (Nat.min_le_right _ _) (Nat.lt_of_not_le hroomy)
    have hpos : 0 < storageFor capacity (min all.length capacity) := by
      have : 0 < initialBytes := by decide
      omega
    obtain ⟨rounds, hrounds, heq⟩ :=
      doubledTo?_rounds (min (all ++ more).length capacity : Nat) hpos
    refine ⟨rounds, hrounds, ?_⟩
    rw [hstorage, Option.some.inj (hreached.symm.trans heq)]

theorem length_holding : (holding limit capacity all).length =
    .ofCount (holding limit capacity all).size := by
  rw [size_holding, holding]

theorem overflowed_holding : (holding limit capacity all).overflowed = true ↔
    limit < .ofCount all.length ∨ capacity < all.length := by
  have hparts : (holding limit capacity all).overflowed = true ↔
      capacity < all.length ∨ limit < .ofCount (min all.length capacity) := by
    rw [overflowed, Bool.or_eq_true, decide_eq_true_iff]
    exact or_congr_left decide_eq_true_iff
  rw [hparts]
  by_cases hdrop : capacity < all.length
  · simp [hdrop]
  · rw [Nat.min_eq_left (by omega), or_comm]

end Holding

/-! ### Observations -/

theorem capacityOf_ofCount (n : Nat) : capacityOf (.ofCount n) = min n mostBytes := by
  simp [capacityOf]

/-- A natural number is accepted as a capacity, and what it admits is bounded by `mostBytes`. -/
theorem create_ofCount (limit : Number) (n : Nat) :
    create limit (.ofCount n) = .ok (new limit (min n mostBytes)) := by
  have hstorage : min n initialBytes = min (min n mostBytes) initialBytes := by
    have : initialBytes ≤ mostBytes := by decide
    omega
  rw [create, Number.lesser_ofCount, Number.lesser_ofCount, allocate_ofCount, new, ← hstorage]
  rfl

/-- Two positions that lie where they would lie in the content cut it there. -/
theorem slice_of_positions {x y : Number} {start stop : Nat}
    (first : (x.lesser b.length).position b.reserved = min start b.size)
    (last : (y.lesser b.length).position b.reserved = min stop b.size) :
    b.slice x y = b.content.toList.extract start stop := by
  unfold reserved at first last
  rw [slice]
  dsimp only
  rw [first, last, content, Array.toList_extract, Array.toList_extract, List.extract_eq_take_drop,
    List.extract_eq_take_drop, List.extract_eq_take_drop, List.drop_zero, Nat.sub_zero,
    List.drop_take, List.take_take]
  rcases Nat.le_total start b.size with hinside | hpast
  · rw [Nat.min_eq_left hinside]
    congr 1
    omega
  · have hleft : min stop b.size - min start b.size = 0 := by omega
    have hright : min (stop - start) (b.size - start) = 0 := by omega
    rw [hleft, hright, List.take_zero, List.take_zero]

/-- Positions counted from the front cut the content, whatever is set aside behind it. -/
theorem slice_ofCount (whole : b.length = .ofCount b.size) (start stop : Nat) :
    b.slice (.ofCount start) (.ofCount stop) = b.content.toList.extract start stop := by
  have hposition (n : Nat) :
      ((Number.ofCount n).lesser b.length).position b.reserved = min n b.size := by
    have := b.size_le_reserved
    rw [whole, Number.lesser_ofCount, Number.position_ofCount]
    omega
  exact slice_of_positions (hposition start) (hposition stop)

/-- A buffer of whole capacity refines the plain prefix of the bytes it is given. All prints
return. The first `capacity` bytes are its content; they stand at the front of its storage, which
stays within the capacity, with zeros behind them; and it has overflowed exactly when there are
more than the limit or the capacity. The next print finds its storage by finitely many doublings.
So prints of the same bytes in other pieces cannot be told apart. -/
theorem printAll_refines_prefix (limit : Number) (capacity : Nat) (ts : List Text) :
    let all := ts.flatMap Text.encode
    let b := (new limit capacity).printAll ts
    create limit (.ofCount capacity) = .ok (new limit (min capacity mostBytes)) ∧
    (ts.forM print).outcome (new limit capacity) = (.ok (), b) ∧
    b.content.toList = all.take capacity ∧
    b.length = .ofCount (min all.length capacity) ∧
    b.reserved ≤ capacity ∧
    (b.size ≤ b.reserved ∧
      b.bytes.toList = all.take capacity ++ List.replicate (b.reserved - b.size) 0) ∧
    (b.overflowed = true ↔ limit < .ofCount all.length ∨ capacity < all.length) ∧
    (∀ start stop : Nat,
      b.slice (.ofCount start) (.ofCount stop) = (all.take capacity).extract start stop) ∧
    (∀ t, (print t).outcome b = (.ok (), b.printed t) ∧
      ∃ rounds, DoublesIn (b.printed t).size b.reserved rounds ∧
        (b.printed t).reserved = min (2 ^ rounds * b.reserved) capacity) ∧
    ∀ us, us.flatMap Text.encode = all →
      let other := (new limit capacity).printAll us
      other.length = b.length ∧ other.overflowed = b.overflowed ∧
        (∀ start stop, other.slice start stop = b.slice start stop) ∧ other.text = b.text := by
  intro all b
  have hb : b = holding limit capacity all := printAll_new limit capacity ts
  have hcontent : b.content.toList = all.take capacity := by rw [hb, content_holding]
  have hsize : b.size = min all.length capacity := by rw [hb, size_holding]
  have hwhole : b.length = .ofCount b.size := by rw [hb, length_holding]
  have hstorage := storageFor_bounds (Nat.min_le_right all.length capacity)
  have hreserved : b.reserved = storageFor capacity (min all.length capacity) := by
    rw [hb, reserved_holding]
  refine ⟨create_ofCount limit capacity, ?_, hcontent, hsize ▸ hwhole, by omega, ⟨by omega, ?_⟩,
    hb ▸ overflowed_holding limit capacity all, ?_, ?_, ?_⟩
  · rw [new_eq_holding, prints_holding, hb, List.nil_append]
  · rw [hsize, hreserved, hb, ← length_kept, holding, stored, ← length_kept]
  · intro start stop
    rw [slice_ofCount hwhole, hcontent]
  · intro t
    have hprint : (print t).outcome (holding limit capacity all) = _ :=
      append_holding limit capacity all t.encode
    rw [hb, printed_holding, hprint]
    exact ⟨rfl, grown_holding limit capacity all t.encode⟩
  · intro us hus other
    have hsame : other = b := by
      rw [hb, ← hus]
      exact printAll_new limit capacity us
    rw [hsame]
    exact ⟨rfl, rfl, fun _ _ => rfl, rfl⟩

end ReportBuffer

end DeviceReports
