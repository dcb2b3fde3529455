import DeviceReports.Proofs.Grammar
import DeviceReports.Proofs.Windows
import DeviceReports.Report

/-!
# Accepted settings

The limits of accepted settings are whole numbers of bytes, given or derived, and the size
limit lies the margin below the capacity as whole numbers, not only after rounding.
-/

set_option autoImplicit false

namespace DeviceReports

namespace Settings

open Schema

variable {machine : String}

/-- The document that is checked: an absent one says nothing. -/
def given (document : Value) : Value := if document.isMissing then .record [] else document

/-- Settings are those of a document that conforms and keeps the margin. -/
theorem resolve_ok {document : Value} {s : Settings} :
    resolve machine document = .ok s ↔
      Conforms schema (given document) ∧ s = ofValue machine (normalized schema (given document)) ∧
        ¬ s.bufferCapacity - s.sizeLimit < margin := by
  rw [given, resolve]
  generalize (if document.isMissing then Value.record [] else document) = v
  rcases hvalid : validate schema v with found | w <;> dsimp only
  · refine ⟨fun h => absurd h (by simp), fun ⟨hconforms, _⟩ => ?_⟩
    cases (validate_eq_ok.mpr ⟨hconforms, rfl⟩).symm.trans hvalid
  · obtain ⟨hconforms, rfl⟩ := validate_eq_ok.mp hvalid
    by_cases hmargin : (ofValue machine (normalized schema v)).bufferCapacity -
        (ofValue machine (normalized schema v)).sizeLimit < margin
    · rw [if_pos hmargin]
      refine ⟨fun h => absurd h (by simp), ?_⟩
      rintro ⟨-, rfl, hkept⟩
      exact absurd hmargin hkept
    · rw [if_neg hmargin]
      constructor
      · intro h
        obtain rfl := Except.ok.inj h
        exact ⟨hconforms, rfl, hmargin⟩
      · rintro ⟨-, rfl, -⟩
        rfl

/-- A document's settings, where the check gives a document with these. -/
theorem resolve_of_validate {document w : Value} {s : Settings}
    (checked : validate schema (given document) = .ok w) (values : ofValue machine w = s)
    (kept : ¬ s.bufferCapacity - s.sizeLimit < margin) : resolve machine document = .ok s := by
  obtain ⟨hconforms, rfl⟩ := validate_eq_ok.mp checked
  exact resolve_ok.mpr ⟨hconforms, values.symm, kept⟩

theorem names_nodup : schema.fields.names.Nodup := by decide

variable {v : Value}

theorem pageSize_of_conforms (machine : String) (conforms : Conforms schema v) :
    ∃ n, 256 ≤ n ∧ (ofValue machine (normalized schema v)).pageSize = .ofCount n := by
  rcases number_field names_nodup conforms "pageSize" rfl with hfield | ⟨x, hfield, hrules⟩
  · refine ⟨4096, by decide, ?_⟩
    rw [ofValue, hfield]
    exact Number.ofNat_eq_ofCount (n := 4096) (by decide)
  · have hleast : Number.ofCount 256 ≤ x := by
      rw [← Number.ofNat_eq_ofCount (n := 256) (by decide)]
      exact of_decide_eq_true (hrules (.atLeast 256) (by simp))
    obtain ⟨n, hn, rfl⟩ := Number.exists_ofCount (hrules .integer (by simp)) hleast
    exact ⟨n, hn, by rw [ofValue, hfield]; rfl⟩

/-- A limit that is given is a positive count. -/
theorem limit_of_rules {x : Number}
    (hrules : ∀ r ∈ [NumberRule.integer, .positive], r.holds x = true) :
    ∃ n, 1 ≤ n ∧ x = .ofCount n := by
  have hpos : Number.ofCount 0 < x := by
    rw [← Number.ofNat_eq_ofCount (n := 0) (by decide)]
    exact of_decide_eq_true (hrules .positive (by simp))
  exact Number.exists_ofCount_of_pos (hrules .integer (by simp)) hpos

theorem capacity_of_conforms (conforms : Conforms schema v) :
    ∃ n, (ofValue machine (normalized schema v)).bufferCapacity = .ofCount n := by
  rcases number_field names_nodup conforms "bufferCapacity" rfl with
    hfield | ⟨x, hfield, hrules⟩
  · obtain ⟨n, -, hpage⟩ := pageSize_of_conforms machine conforms
    refine ⟨n, ?_⟩
    rw [ofValue, hfield, ← hpage]
    rfl
  · obtain ⟨n, -, rfl⟩ := limit_of_rules hrules
    exact ⟨n, by rw [ofValue, hfield]; rfl⟩

/-- The size limit is a positive count, or a derived one that has left the range. -/
theorem sizeLimit_of_conforms (conforms : Conforms schema v) :
    (ofValue machine (normalized schema v)).sizeLimit = .infinite false ∨
      ∃ n, 1 ≤ n ∧ (ofValue machine (normalized schema v)).sizeLimit = .ofCount n := by
  rcases number_field names_nodup conforms "sizeLimit" rfl with
    hfield | ⟨x, hfield, hrules⟩
  · obtain ⟨n, hn, hpage⟩ := pageSize_of_conforms machine conforms
    have hlimit : (ofValue machine (normalized schema v)).sizeLimit =
        (ofValue machine (normalized schema v)).pageSize - Number.ofNat margin := by
      rw [ofValue, hfield]
      rfl
    have hmargin : margin ≤ n := le_trans (by decide) hn
    have hdifference : Number.ofCount n - Number.ofNat margin =
        Number.ofRat ((n - margin : Nat) : Rat) := by
      rw [Number.ofNat_eq_ofCount (by decide), Nat.cast_sub hmargin, sub_eq_add_neg]
      rfl
    rw [hlimit, hpage, hdifference]
    rcases Number.ofRat_natCast_cases (n - margin) with hfar | ⟨k, hk, hcount⟩
    · exact Or.inl hfar
    · exact Or.inr ⟨k, hk (by unfold margin; omega), hcount⟩
  · obtain ⟨n, hn, rfl⟩ := limit_of_rules hrules
    exact Or.inr ⟨n, hn, by rw [ofValue, hfield]; rfl⟩

/-- What a document that says nothing stands for on a machine of one architecture. -/
def defaults : Settings where
  pageSize := .ofCount 4096
  sizeLimit := .ofCount 4016
  bufferCapacity := .ofCount 4096
  maxOrder := .ofCount 22
  bufferListWrap := .ofCount 32
  debug := false
  architecture := "x64"

theorem resolve_missing : resolve "x64" .missing = .ok defaults :=
  resolve_of_validate rfl (by decide +kernel) (by decide +kernel)

/-- The limits of accepted settings. -/
theorem bounds_of_resolve {document : Value} {s : Settings}
    (accepted : resolve machine document = .ok s) :
    ∃ limit capacity, s.bounds = Bounds.ofCounts limit capacity ∧ 1 ≤ limit ∧
      limit + margin ≤ capacity := by
  obtain ⟨hconforms, rfl, hmargin⟩ := resolve_ok.mp accepted
  obtain ⟨capacity, hcapacity⟩ := capacity_of_conforms hconforms
  rw [hcapacity, Number.ofNat_eq_ofCount (by decide)] at hmargin
  rcases sizeLimit_of_conforms hconforms with hlimit | ⟨limit, hpos, hlimit⟩
  · rw [hlimit] at hmargin
    exact absurd rfl hmargin
  · rw [hlimit, Number.ofCount_sub_lt_iff (by decide) (by decide)] at hmargin
    exact ⟨limit, capacity, by rw [Settings.bounds, hlimit, hcapacity, Bounds.ofCounts], hpos,
      by omega⟩

end Settings

end DeviceReports
