import DeviceReports.Device.Description
import Mathlib.Data.List.Induction

/-!
# Entries written over earlier ones

A buffer class is written under its order and an object under its name. Whoever looks one up
afterwards finds the last entry written there; an object stands where the first entry of its name
stood.
-/

set_option autoImplicit false

namespace DeviceReports

/-! ### The last entry of a list -/

namespace LastEntries

variable {α β : Type} {p q : α → Bool}

theorem findRev?_concat (xs : List α) (x : α) :
    (xs ++ [x]).findRev? p = if p x then some x else xs.findRev? p := by
  rw [List.findRev?_eq_find?_reverse, List.reverse_concat, List.find?_cons,
    List.findRev?_eq_find?_reverse]
  cases p x <;> rfl

theorem findRev?_map (f : α → β) (q : β → Bool) (xs : List α) :
    (xs.map f).findRev? q = (xs.findRev? fun x => q (f x)).map f := by
  rw [List.findRev?_eq_find?_reverse, ← List.map_reverse, List.find?_map,
    List.findRev?_eq_find?_reverse]
  rfl

theorem findRev?_congr {xs : List α} (h : ∀ x ∈ xs, p x = q x) :
    xs.findRev? p = xs.findRev? q := by
  induction xs using List.reverseRecOn with
  | nil => rfl
  | append_singleton xs x ih =>
    rw [findRev?_concat, findRev?_concat, h x (by simp), ih fun y hy => h y (by simp [hy])]

theorem mem_of_findRev? {x : α} {xs : List α} (h : xs.findRev? p = some x) : x ∈ xs := by
  rw [List.findRev?_eq_find?_reverse] at h
  exact List.mem_reverse.mp (List.mem_of_find?_eq_some h)

theorem eraseDups_concat {β : Type} [BEq β] [LawfulBEq β] (xs : List β) (x : β) :
    (xs ++ [x]).eraseDups = if xs.contains x then xs.eraseDups else xs.eraseDups ++ [x] := by
  rw [List.eraseDups_append, List.removeAll]
  cases h : xs.contains x with
  | true => simp_all
  | false => simp_all [List.eraseDups_cons]

end LastEntries

open LastEntries

/-! ### Classes under their orders -/

namespace DmaPool

theorem find?_insertClass (order n : Number) (c : BufferClass)
    (classes : List (Number × BufferClass)) :
    (insertClass order c classes).find? (·.1 == n) =
      if order = n then some (order, c) else classes.find? (·.1 == n) := by
  have hfirst (rest : List (Number × BufferClass)) :
      ((order, c) :: rest).find? (·.1 == n) =
        if order = n then some (order, c) else rest.find? (·.1 == n) := by
    split
    · next h => exact List.find?_cons_of_pos (beq_iff_eq.mpr h)
    · next h => exact List.find?_cons_of_neg (by simpa using h)
  induction classes with
  | nil => exact hfirst []
  | cons e rest ih =>
    obtain ⟨m, old⟩ := e
    rw [insertClass]
    by_cases hreplaced : order = m
    · rw [if_pos hreplaced, hfirst]
      split
      · rfl
      · next h => exact (List.find?_cons_of_neg (by simpa [← hreplaced] using h)).symm
    · rw [if_neg hreplaced]
      split
      · exact hfirst _
      · by_cases hm : m = n
        · have horder : ¬ order = n := hm ▸ hreplaced
          rw [if_neg horder, List.find?_cons_of_pos (by simpa using hm),
            List.find?_cons_of_pos (by simpa using hm)]
        · rw [List.find?_cons_of_neg (by simpa using hm), ih,
            List.find?_cons_of_neg (by simpa using hm)]

/-- The class just written stands at its order, and no other order is touched. -/
theorem classAt?_putClass (p : DmaPool) (order n : Number) (c : BufferClass) :
    (p.putClass order c).classAt? n = if order = n then some c else p.classAt? n := by
  rw [classAt?, putClass, find?_insertClass]
  split
  · rfl
  · rfl

/-- The pool that a run of writes fills. -/
def filled (buffers : List Number) (writes : List (Number × BufferClass)) : DmaPool :=
  writes.foldl (fun p w => p.putClass w.1 w.2) { buffers }

theorem filled_concat (buffers : List Number) (writes : List (Number × BufferClass))
    (w : Number × BufferClass) :
    filled buffers (writes ++ [w]) = (filled buffers writes).putClass w.1 w.2 := by
  rw [filled, List.foldl_append, filled, List.foldl_cons, List.foldl_nil]

theorem buffers_filled (buffers : List Number) (writes : List (Number × BufferClass)) :
    (filled buffers writes).buffers = buffers := by
  induction writes using List.reverseRecOn with
  | nil => rfl
  | append_singleton writes w ih =>
    rw [filled_concat]
    exact ih

/-- At each order stands the class that was last written there. -/
theorem classAt?_filled (buffers : List Number) (writes : List (Number × BufferClass))
    (n : Number) :
    (filled buffers writes).classAt? n = (writes.findRev? (·.1 == n)).map (·.2) := by
  induction writes using List.reverseRecOn with
  | nil => rfl
  | append_singleton writes w ih =>
    rw [filled_concat, classAt?_putClass, findRev?_concat, ih]
    by_cases h : w.1 = n <;> simp [h]

end DmaPool

/-! ### Objects under their names -/

namespace Device

theorem any_name (objects : List NamedObject) (n : Number) :
    objects.any (·.name == n) = (objects.map (·.name)).contains n := by
  rw [List.contains_eq_any_beq, List.any_map]
  exact congrArg _ (funext fun o => BEq.comm)

theorem map_name_putObject (objects : List NamedObject) (o : NamedObject) :
    (putObject objects o).map (·.name) =
      if (objects.map (·.name)).contains o.name then objects.map (·.name)
      else objects.map (·.name) ++ [o.name] := by
  rw [putObject, any_name]
  split
  · rw [List.map_map]
    refine List.map_congr_left fun old _ => ?_
    by_cases hname : old.name = o.name <;> simp [hname]
  · rw [List.map_append, List.map_singleton]

/-- What a write leaves is the object written and the objects of other names. -/
theorem mem_putObject {objects : List NamedObject} {o x : NamedObject}
    (h : x ∈ putObject objects o) : x = o ∨ (x ∈ objects ∧ x.name ≠ o.name) := by
  rw [putObject] at h
  split at h
  · obtain ⟨old, hold, hx⟩ := List.mem_map.mp h
    split at hx
    · exact Or.inl hx.symm
    · next hname => exact Or.inr (hx ▸ ⟨hold, by simpa using hname⟩)
  · next hnew =>
    rcases List.mem_append.mp h with hold | hlast
    · exact Or.inr ⟨hold, fun hname => hnew (List.any_eq_true.mpr ⟨x, hold, by simpa using hname⟩)⟩
    · exact Or.inl (List.mem_singleton.mp hlast)

/-- The registry that a run of writes builds. -/
def registry (writes : List NamedObject) : List NamedObject := writes.foldl putObject []

theorem registry_concat (writes : List NamedObject) (o : NamedObject) :
    registry (writes ++ [o]) = putObject (registry writes) o := by
  rw [registry, List.foldl_append, registry, List.foldl_cons, List.foldl_nil]

/-- Each name is registered once, in the place where it was first written. -/
theorem map_name_registry (writes : List NamedObject) :
    (registry writes).map (·.name) = (writes.map (·.name)).eraseDups := by
  induction writes using List.reverseRecOn with
  | nil => rfl
  | append_singleton writes o ih =>
    have hmember : ((registry writes).map (·.name)).contains o.name =
        (writes.map (·.name)).contains o.name := by
      rw [ih]
      simp
    rw [registry_concat, map_name_putObject, List.map_append, List.map_singleton,
      eraseDups_concat, hmember, ih]

/-- What is registered under a name is what was last written there. -/
theorem last_of_mem_registry {writes : List NamedObject} {o : NamedObject}
    (h : o ∈ registry writes) : writes.findRev? (·.name == o.name) = some o := by
  induction writes using List.reverseRecOn with
  | nil => cases h
  | append_singleton writes last ih =>
    rw [registry_concat] at h
    rw [findRev?_concat]
    rcases mem_putObject h with rfl | ⟨hold, hname⟩
    · exact if_pos (beq_self_eq_true _)
    · rw [if_neg (by simpa using Ne.symm hname), ih hold]

end Device

end DeviceReports
