import DeviceReports.Failure.Catalog
import Mathlib.Data.List.Nodup
import Mathlib.Logic.ExistsUnique

/-!
# The views of the error catalog

A name can be looked up in the catalog, sought among all names, sought in the list of a domain, and
the catalog can be asked whether it answers to it. Lookup and the two lists tell the same names,
those of the codes. The question is answered with yes for them and for the names that every keyed
record answers to, which are no codes.
-/

set_option autoImplicit false

namespace DeviceReports

namespace ErrorCode

theorem mem_all (c : ErrorCode) : c ∈ all := by
  cases c <;> decide

theorem nodup_names : (all.map name).Nodup := by decide

/-- No two codes have one name. -/
theorem name_injective : Function.Injective name :=
  fun a b h => List.inj_on_of_nodup_map nodup_names (mem_all a) (mem_all b) h

theorem ofName?_name (c : ErrorCode) : ofName? c.name = some c := by
  have hsome : (ofName? c.name).isSome = true :=
    List.find?_isSome.mpr ⟨c, mem_all c, beq_self_eq_true _⟩
  obtain ⟨d, hd⟩ := Option.isSome_iff_exists.mp hsome
  have hname : d.name = c.name := by simpa using List.find?_some hd
  rw [hd, name_injective hname]

theorem ofName?_eq_some_iff {s : String} {c : ErrorCode} : ofName? s = some c ↔ c.name = s := by
  constructor
  · intro h
    simpa using List.find?_some h
  · rintro rfl
    exact ofName?_name c

end ErrorCode

namespace Catalog

open ErrorCode

variable {s domain : String} {e : CatalogEntry}

theorem entry?_eq_some_iff : entry? s = some e ↔ ∃ c : ErrorCode, c.name = s ∧ c.entry = e := by
  unfold entry?
  rw [Option.map_eq_some_iff]
  simp only [ofName?_eq_some_iff]

theorem mem_codeNames_iff : s ∈ codeNames ↔ ∃ c : ErrorCode, c.name = s := by
  rw [codeNames, List.mem_map]
  exact ⟨fun ⟨c, _, hc⟩ => ⟨c, hc⟩, fun ⟨c, hc⟩ => ⟨c, mem_all c, hc⟩⟩

/-- The names that are listed are those that have an entry. -/
theorem listed_iff_entry : s ∈ codeNames ↔ ∃ e, entry? s = some e := by
  rw [mem_codeNames_iff]
  constructor
  · rintro ⟨c, hc⟩
    exact ⟨c.entry, entry?_eq_some_iff.mpr ⟨c, hc, rfl⟩⟩
  · rintro ⟨e, he⟩
    obtain ⟨c, hc, -⟩ := entry?_eq_some_iff.mp he
    exact ⟨c, hc⟩

theorem isSome_ofName?_iff : (ofName? s).isSome = true ↔ s ∈ codeNames := by
  rw [Option.isSome_iff_exists, mem_codeNames_iff]
  simp only [ofName?_eq_some_iff]

theorem answersTo_iff : answersTo s = true ↔ s ∈ codeNames ∨ s ∈ memberNames := by
  rw [answersTo, Bool.or_eq_true, isSome_ofName?_iff, List.contains_iff_mem]

/-- No code has a name that every record answers to. -/
theorem member_notMem_codeNames (member : s ∈ memberNames) : s ∉ codeNames := by
  have hapart : ∀ m ∈ memberNames, m ∉ codeNames := by decide
  exact hapart s member

/-! ### Domains -/

/-- Whether a name has an entry of a domain. -/
def isOf (domain s : String) : Bool :=
  match entry? s with
  | some e => e.domain == domain
  | none => false

theorem isOf_name (domain : String) (c : ErrorCode) :
    isOf domain c.name = (c.entry.domain == domain) := by
  rw [isOf, entry?_eq_some_iff.mpr ⟨c, rfl, rfl⟩]

theorem isOf_iff : isOf domain s = true ↔ ∃ e, entry? s = some e ∧ e.domain = domain := by
  rw [isOf]
  cases entry? s <;> simp

/-- The list of a domain is the list of all names with those of other domains left out. -/
theorem codeNamesOf_eq_filter (domain : String) :
    codeNamesOf domain = codeNames.filter (isOf domain) := by
  rw [codeNamesOf, codeNames, List.filter_map]
  refine congrArg (List.map name) (List.filter_congr fun c _ => ?_)
  exact (isOf_name domain c).symm

theorem mem_codeNamesOf_iff :
    s ∈ codeNamesOf domain ↔ ∃ e, entry? s = some e ∧ e.domain = domain := by
  rw [codeNamesOf_eq_filter, List.mem_filter, isOf_iff, listed_iff_entry]
  exact ⟨And.right, fun h => ⟨h.imp fun e he => he.1, h⟩⟩

theorem existsUnique_domain (found : entry? s = some e) : ∃! domain, s ∈ codeNamesOf domain := by
  refine ⟨e.domain, mem_codeNamesOf_iff.mpr ⟨e, found, rfl⟩, ?_⟩
  intro domain hmem
  obtain ⟨other, hother, rfl⟩ := mem_codeNamesOf_iff.mp hmem
  rw [Option.some.inj (hother.symm.trans found)]

/-- A name is listed exactly if it has an entry, and exactly if it is in the list of one domain and
no other; that is the domain of its entry, and the list of a domain keeps the order of the catalog.
The catalog answers to the names listed and to those that every record answers to, so the answer is
right for all names but the latter. -/
theorem views_agree_unless_member (s : String) :
    (s ∈ codeNames ↔ ∃ c : ErrorCode, c.name = s ∧ entry? s = some c.entry) ∧
      (s ∈ codeNames ↔ ∃ e, entry? s = some e) ∧
      (s ∈ codeNames ↔ ∃! domain, s ∈ codeNamesOf domain) ∧
      (∀ domain, s ∈ codeNamesOf domain ↔ ∃ e, entry? s = some e ∧ e.domain = domain) ∧
      (∀ domain, codeNamesOf domain = codeNames.filter (isOf domain)) ∧
      (answersTo s = true ↔ s ∈ codeNames ∨ s ∈ memberNames) ∧
      ((answersTo s = true ↔ s ∈ codeNames) ↔ s ∉ memberNames) := by
  refine ⟨?_, listed_iff_entry, ?_, fun _ => mem_codeNamesOf_iff, codeNamesOf_eq_filter,
    answersTo_iff, ?_⟩
  · rw [mem_codeNames_iff]
    refine exists_congr fun c => ⟨fun hc => ⟨hc, ?_⟩, And.left⟩
    exact entry?_eq_some_iff.mpr ⟨c, hc, rfl⟩
  · constructor
    · intro listed
      obtain ⟨e, he⟩ := listed_iff_entry.mp listed
      exact existsUnique_domain he
    · rintro ⟨domain, hmem, -⟩
      obtain ⟨e, he, -⟩ := mem_codeNamesOf_iff.mp hmem
      exact listed_iff_entry.mpr ⟨e, he⟩
  · rw [answersTo_iff]
    constructor
    · intro agree member
      exact member_notMem_codeNames member (agree.mp (Or.inr member))
    · intro other
      exact or_iff_left other

/-- The catalog answers to a name that it neither lists, for any domain, nor has an entry for. -/
theorem answersTo_unlisted :
    answersTo "toString" = true ∧ "toString" ∉ codeNames ∧ entry? "toString" = none ∧
      ∀ domain, "toString" ∉ codeNamesOf domain := by
  have hentry : entry? "toString" = none := by decide
  refine ⟨by decide, by decide, hentry, ?_⟩
  intro domain hmem
  obtain ⟨e, he, -⟩ := mem_codeNamesOf_iff.mp hmem
  rw [hentry] at he
  cases he

end Catalog

end DeviceReports
