import DeviceReports.Proofs.AnyCapacity

/-!
# Slices between any integers

A slice is cut out of what a buffer has set aside, and both of its ends are kept from passing the
length of the content. A negative end is not: it is counted back from the end of what is set aside,
and may come to lie behind the content. What a slice then shows beside the content is told here, for
buffers of whole capacity; with an end from zero on it shows content alone.
-/

set_option autoImplicit false

namespace DeviceReports

open Text (Bytes)

theorem Number.position_intCast (size : Nat) (n : Int) :
    (Number.finite (n : Rat)).position size =
      if n < 0 then size - n.natAbs else min n.toNat size := by
  have hwhole : (Number.finite (n : Rat)).whole? = some n := by simp [whole?]
  rw [position, hwhole]

namespace ReportBuffer

variable {b : ReportBuffer}

/-- Where an end of a slice lies: a negative one that far back from the end of what is set aside,
any other no further than the content goes. -/
def placeOf (b : ReportBuffer) (n : Int) : Nat :=
  if n < 0 then b.reserved - n.natAbs else min n.toNat b.size

/-- The bytes of a slice that are no content. -/
def unusedIn (b : ReportBuffer) (start stop : Int) : Nat :=
  b.placeOf stop - max (b.placeOf start) b.size

theorem placeOf_of_nonneg {n : Int} (h : 0 ≤ n) : b.placeOf n = min n.toNat b.size := by
  rw [placeOf, if_neg (by omega)]

theorem placeOf_of_neg {n : Int} (h : n < 0) : b.placeOf n = b.reserved - n.natAbs := by
  rw [placeOf, if_pos h]

theorem lesser_intCast (whole : b.length = .ofCount b.size) (n : Int) :
    (Number.finite (n : Rat)).lesser b.length = .finite ((min n b.size : Int) : Rat) := by
  rw [whole, Number.ofCount, Number.lesser_finite, Int.cast_min, Int.cast_natCast]

theorem position_lesser_intCast (whole : b.length = .ofCount b.size) (n : Int) :
    ((Number.finite (n : Rat)).lesser b.length).position b.reserved = b.placeOf n := by
  have hfits := b.size_le_reserved
  rw [lesser_intCast whole, Number.position_intCast]
  by_cases h : n < 0
  · have hmin : min n (b.size : Int) = n := by omega
    rw [hmin, if_pos h, placeOf_of_neg h]
  · rw [if_neg (by omega), placeOf_of_nonneg (by omega)]
    omega

/-- A piece of a storage is a piece of the content and zeros behind it. -/
theorem extract_stored {content : Bytes} {size stop : Nat} (fits : stop ≤ size) (start : Nat) :
    ((stored content size).extract start stop).toList =
      content.extract start stop ++ List.replicate (stop - max start content.length) 0 := by
  rw [stored, Array.toList_extract, List.extract_eq_take_drop, List.extract_eq_take_drop,
    List.drop_append, List.take_append, List.drop_replicate, List.take_replicate, List.length_drop]
  congr 2
  omega

/-- A slice is a piece of the content, and behind it the unused bytes up to its end. -/
theorem slice_intCast (whole : b.length = .ofCount b.size)
    (unused : b.bytes = stored b.content.toList b.reserved) (start stop : Int) :
    b.slice (.finite (start : Rat)) (.finite (stop : Rat)) =
      b.content.toList.extract (b.placeOf start) (b.placeOf stop) ++
        List.replicate (b.unusedIn start stop) 0 := by
  have hfirst := position_lesser_intCast whole start
  have hlast := position_lesser_intCast whole stop
  have hwithin : b.placeOf stop ≤ b.reserved := by
    rw [← hlast]
    exact Number.position_le _ _
  unfold reserved at hfirst hlast
  rw [slice]
  dsimp only
  rw [hfirst, hlast, unused, extract_stored hwithin, unusedIn, length_content]

theorem unusedIn_eq_zero_iff (b : ReportBuffer) (start stop : Int) :
    b.unusedIn start stop = 0 ↔
      0 ≤ stop ∨ b.reserved ≤ b.size + stop.natAbs ∨ b.placeOf stop ≤ b.placeOf start := by
  rw [unusedIn]
  by_cases h : 0 ≤ stop
  · rw [placeOf_of_nonneg h]
    omega
  · rw [placeOf_of_neg (by omega)]
    omega

/-- A slice of what was printed into a buffer of whole capacity is a piece of the content, and
behind it so many of the zeros that are set aside and unused. There are none of them exactly if the
end is not negative, or reaches back to the content, or lies no further than the start. -/
theorem slice_shows_content_and_unused (limit : Number) (capacity : Nat) (ts : List Text)
    (start stop : Int) :
    let b := (new limit capacity).printAll ts
    let content := (ts.flatMap Text.encode).take capacity
    let shown := b.slice (.finite (start : Rat)) (.finite (stop : Rat))
    b.length = .ofCount content.length ∧
      b.reserved = storageFor capacity content.length ∧
      shown = content.extract (b.placeOf start) (b.placeOf stop) ++
        List.replicate (b.unusedIn start stop) 0 ∧
      (b.unusedIn start stop = 0 ↔
        0 ≤ stop ∨ b.reserved ≤ content.length + stop.natAbs ∨ b.placeOf stop ≤ b.placeOf start) ∧
      (0 ≤ stop → shown = content.extract (b.placeOf start) stop.toNat) := by
  intro b content shown
  have hb : b = holding limit capacity (ts.flatMap Text.encode) := printAll_new limit capacity ts
  have hcontent : b.content.toList = content := by rw [hb, content_holding]
  have hsize : b.size = content.length := by rw [← hcontent, length_content]
  have hwhole : b.length = .ofCount b.size := by rw [hb, length_holding]
  have hreserved : b.reserved = storageFor capacity content.length := by
    rw [hb, reserved_holding, ← length_kept]
  have hunused : b.bytes = stored b.content.toList b.reserved := by
    rw [hcontent, hreserved, hb, holding, ← length_kept]
  have hshown : shown = content.extract (b.placeOf start) (b.placeOf stop) ++
      List.replicate (b.unusedIn start stop) 0 := by
    rw [← hcontent]
    exact slice_intCast hwhole hunused start stop
  refine ⟨by rw [hwhole, hsize], hreserved, hshown, ?_, ?_⟩
  · rw [← hsize]
    exact unusedIn_eq_zero_iff b start stop
  · intro hstop
    have hnone : b.unusedIn start stop = 0 := (unusedIn_eq_zero_iff b start stop).mpr (Or.inl hstop)
    rw [hshown, hnone, List.replicate_zero, List.append_nil, placeOf_of_nonneg hstop, hsize,
      List.extract_eq_take_drop, List.extract_eq_take_drop, List.take_eq_take_iff, List.length_drop]
    omega

/-- Ten bytes are set aside and three of them are content. The slice from the fourth last to the
third last of the ten shows a zero, which no piece of the content is. -/
theorem slice_behind_content :
    let b := (new 10 10).printAll [Text.ofString "abc"]
    b.content.toList = [97, 98, 99] ∧ b.slice (.finite (-4)) (.finite (-3)) = [0] ∧
      ∀ start stop, b.content.toList.extract start stop ≠ [0] := by
  intro b
  have hcontent : b.content.toList = [97, 98, 99] := by decide +kernel
  have hshown : b.slice (.finite (-4)) (.finite (-3)) = [0] := by decide +kernel
  refine ⟨hcontent, hshown, ?_⟩
  intro start stop h
  have hmem : (0 : UInt8) ∈ b.content.toList.extract start stop := by
    rw [h]
    exact List.mem_singleton_self 0
  rw [hcontent, List.extract_eq_take_drop] at hmem
  have hinside := List.mem_of_mem_drop (List.mem_of_mem_take hmem)
  revert hinside
  decide

end ReportBuffer

end DeviceReports
