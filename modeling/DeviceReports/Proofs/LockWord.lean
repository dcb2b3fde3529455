import DeviceReports.Lock
import DeviceReports.Proofs.Counts
import DeviceReports.Proofs.Outcomes

/-!
# Taking and releasing a lock word

A held word is given up after a number of tries that the threshold alone determines: when the
acquirer sleeps in between makes no difference. The tries are counted in double precision, so
that a finite threshold is reached exactly if it is at most 2^53; under a larger one the
acquirer goes on without end. An exclusive run finds the word free and leaves it free, or it
finds the word held and then neither runs its body nor changes anything.
-/

set_option autoImplicit false

namespace DeviceReports

/-! ### Counting in double precision -/

namespace Number

/-- What a count shows after so many steps from zero. -/
def counted (steps : Nat) : Number := .ofCount (min steps exactBound)

theorem counted_of_le {steps : Nat} (h : steps ≤ exactBound) : counted steps = .ofCount steps := by
  rw [counted, Nat.min_eq_left h]

theorem zero_eq_counted : (0 : Number) = counted 0 := by
  rw [counted_of_le (Nat.zero_le _)]
  exact ofNat_eq_ofCount (Nat.zero_le _)

/-- Past 2^53 the sum is rounded back, so the count stands still. -/
theorem counted_add_one (steps : Nat) : counted steps + 1 = counted (steps + 1) := by
  have hone : (1 : Number) = .ofCount 1 := ofNat_eq_ofCount (by decide)
  rcases Nat.lt_or_ge steps exactBound with hexact | hfull
  · rw [counted_of_le hexact.le, counted_of_le hexact, hone, ofCount_add_ofCount hexact]
  · have hstays : ofCount exactBound + 1 = ofCount exactBound := by decide +kernel
    rw [counted, counted, Nat.min_eq_right hfull, Nat.min_eq_right (Nat.le_succ_of_le hfull),
      hstays]

theorem finite_le_counted {q : Rat} {steps : Nat} :
    finite q ≤ counted steps ↔ q ≤ steps ∧ q ≤ exactBound := by
  change decide (q ≤ ((min steps exactBound : Nat) : Rat)) = true ↔ _
  rw [decide_eq_true_iff, Nat.cast_min, le_min_iff]

end Number

namespace Lock

open Number (counted)

/-! ### Trying a held word -/

variable {p : Patience} {word : Int32} {threshold : Rat}

theorem afterFailure_gives_up {tries : Nat} (reached : p.panicThreshold ≤ counted (tries + 1))
    (sinceSleep : Number) :
    Tries.afterFailure p ⟨counted tries, sinceSleep⟩ = .error (counted (tries + 1)) := by
  rw [Tries.afterFailure, Number.counted_add_one, if_pos reached]

/-- An acquirer that goes on has counted the failure, whether it sleeps or not. -/
theorem afterFailure_goes_on {tries : Nat} (below : ¬ p.panicThreshold ≤ counted (tries + 1))
    (sinceSleep : Number) : ∃ later,
      Tries.afterFailure p ⟨counted tries, sinceSleep⟩ = .ok ⟨counted (tries + 1), later⟩ := by
  rw [Tries.afterFailure, Number.counted_add_one, if_neg below]
  by_cases hsleeps : p.yieldAfterSpins ≤ sinceSleep + 1
  · exact ⟨0, if_pos hsleeps⟩
  · exact ⟨sinceSleep + 1, if_neg hsleeps⟩

/-- As long as the count stays below the threshold, no try of a held word is the last. -/
theorem spin_goes_on (held : word ≠ free) {fuel tries : Nat}
    (below : ∀ n, tries < n → n ≤ tries + fuel → ¬ p.panicThreshold ≤ counted n)
    (sinceSleep : Number) : spin p fuel ⟨counted tries, sinceSleep⟩ word = none := by
  induction fuel generalizing tries sinceSleep with
  | zero => rfl
  | succ fuel ih =>
    obtain ⟨later, hfailed⟩ :=
      afterFailure_goes_on (below (tries + 1) (by omega) (by omega)) sinceSleep
    rw [spin, if_neg held, hfailed]
    exact ih (fun n hn hle => below n (by omega) (by omega)) later

/-- At the first count that reaches the threshold the acquirer gives up with it. -/
theorem spin_gives_up (held : word ≠ free) {fuel tries last : Nat}
    (below : ∀ n, tries < n → n < last → ¬ p.panicThreshold ≤ counted n)
    (reached : p.panicThreshold ≤ counted last) (going : tries < last)
    (enough : last ≤ tries + fuel) (sinceSleep : Number) :
    spin p fuel ⟨counted tries, sinceSleep⟩ word = some (.error (counted last), word) := by
  induction fuel generalizing tries sinceSleep with
  | zero => omega
  | succ fuel ih =>
    rw [spin, if_neg held]
    rcases Nat.lt_or_ge (tries + 1) last with hmore | hlast
    · obtain ⟨later, hfailed⟩ :=
        afterFailure_goes_on (below _ (Nat.lt_succ_self _) hmore) sinceSleep
      rw [hfailed]
      exact ih (fun n hn => below n (by omega)) hmore (by omega) later
    · obtain rfl : last = tries + 1 := by omega
      rw [afterFailure_gives_up reached]

theorem tries_zero : ({} : Tries) = ⟨counted 0, 0⟩ := by rw [← Number.zero_eq_counted]

theorem spin_free (p : Patience) (fuel : Nat) (t : Tries) :
    spin p (fuel + 1) t free = some (.ok (), held) := by
  rw [spin, if_pos rfl]

/-- Tries that have not ended an acquisition by the time their count stands still never end it,
whatever the patience. -/
theorem spin_undecided (p : Patience) (word : Int32)
    (undecided : spin p decidingTries {} word = none)
    (fuel : Nat) : spin p fuel {} word = none := by
  have hheld : word ≠ free := by
    rintro rfl
    cases (spin_free p (decidingTries - 1) {}).symm.trans undecided
  rw [tries_zero] at undecided ⊢
  refine spin_goes_on hheld (fun n hn _ hreached => ?_) 0
  -- a count that reaches the threshold stands still, or is one of the first
  have hsome : ∃ k, 0 < k ∧ p.panicThreshold ≤ counted k := ⟨n, hn, hreached⟩
  let first := Nat.find hsome
  have hfirst : 0 < first ∧ p.panicThreshold ≤ counted first := Nat.find_spec hsome
  have hbefore (k : Nat) (hk : 0 < k) (hlt : k < first) : ¬ p.panicThreshold ≤ counted k :=
    fun h => Nat.find_min hsome hlt ⟨hk, h⟩
  have hearly : first ≤ decidingTries := by
    by_contra hlate
    have hsame : counted decidingTries = counted first := by
      have hlast : Number.exactBound ≤ first := Nat.le_of_not_le hlate
      rw [counted, counted, Nat.min_eq_right hlast, decidingTries, Nat.min_self]
    exact hbefore decidingTries (by decide) (by omega) (hsame ▸ hfirst.2)
  have hgives : spin p decidingTries ⟨counted 0, 0⟩ word = some (.error (counted first), word) :=
    spin_gives_up hheld hbefore hfirst.2 hfirst.1 (by omega) 0
  cases hgives.symm.trans undecided

/-! ### Finite thresholds -/

/-- The failed tries after which an acquirer gives up under a finite threshold that their count
reaches. -/
def triesUnder (threshold : Rat) : Nat := max threshold.ceil.toNat 1

theorem triesUnder_le (reached : threshold ≤ Number.exactBound) :
    triesUnder threshold ≤ Number.exactBound := by
  have hceil : threshold.ceil ≤ ((Number.exactBound : Nat) : Int) := Rat.ceil_le_iff.mpr reached
  have hpos : 1 ≤ Number.exactBound := by decide
  unfold triesUnder
  omega

theorem le_triesUnder (threshold : Rat) : threshold ≤ triesUnder threshold := by
  have hceil : threshold ≤ threshold.ceil := Rat.le_ceil
  have hle : threshold.ceil ≤ (triesUnder threshold : Int) := by unfold triesUnder; omega
  exact hceil.trans (by exact_mod_cast hle)

theorem triesUnder_le_of_le {n : Nat} (pos : 0 < n) (h : threshold ≤ n) :
    triesUnder threshold ≤ n := by
  have hceil : threshold.ceil ≤ (n : Int) := Rat.ceil_le_iff.mpr h
  unfold triesUnder
  omega

/-- Under a threshold that the count reaches, trying a held word has not ended before the least
positive count that reaches it, and it ends there. -/
theorem spin_held (held : word ≠ free) (finite : p.panicThreshold = .finite threshold)
    (reached : threshold ≤ Number.exactBound) (fuel : Nat) :
    spin p fuel {} word =
      if triesUnder threshold ≤ fuel then some (.error (.ofCount (triesUnder threshold)), word)
      else none := by
  have hbelow (n : Nat) (hn : 0 < n) (hlt : n < triesUnder threshold) :
      ¬ p.panicThreshold ≤ counted n := by
    rw [finite, Number.finite_le_counted]
    exact fun h => absurd (triesUnder_le_of_le hn h.1) (by omega)
  rw [tries_zero]
  split_ifs with henough
  · rw [← Number.counted_of_le (triesUnder_le reached)]
    refine spin_gives_up held hbelow ?_ (by unfold triesUnder; omega) (by omega) 0
    rw [finite, Number.finite_le_counted]
    exact ⟨le_triesUnder threshold, reached⟩
  · exact spin_goes_on held (fun n hn hle => hbelow n hn (by omega)) 0

/-- A threshold above 2^53 is reached by no count. -/
theorem spin_beyond (held : word ≠ free) (finite : p.panicThreshold = .finite threshold)
    (beyond : ¬ threshold ≤ Number.exactBound) (fuel : Nat) : spin p fuel {} word = none := by
  rw [tries_zero]
  refine spin_goes_on held (fun n _ _ => ?_) 0
  rw [finite, Number.finite_le_counted]
  exact fun h => beyond h.2

/-- How an acquisition ends that waits for a held word under a finite threshold. -/
def inVain (threshold : Rat) : Stop :=
  if threshold ≤ Number.exactBound then .failed (.deadlock (some (.ofCount (triesUnder threshold))))
  else .endless

theorem inVain_of_le (reached : threshold ≤ Number.exactBound) :
    inVain threshold = .failed (.deadlock (some (.ofCount (triesUnder threshold)))) :=
  if_pos reached

theorem acquire_free (p : Patience) : (acquire p).outcome free = (.ok (), held) := by
  have hspin : spin p decidingTries {} free = some (.ok (), held) := spin_free p _ _
  rw [acquire, Effect.outcome_ofOutcome, hspin]

theorem acquire_held (held : word ≠ free) (finite : p.panicThreshold = .finite threshold) :
    (acquire p).outcome word = (.error (inVain threshold), word) := by
  rw [acquire, Effect.outcome_ofOutcome, inVain]
  split_ifs with hreached
  · have hspin : spin p decidingTries {} word =
        some (.error (.ofCount (triesUnder threshold)), word) :=
      (spin_held held finite hreached _).trans (if_pos (triesUnder_le hreached))
    rw [hspin]
  · rw [spin_beyond held finite hreached]

/-- A free word is taken, and a held one stays as it is, whatever the patience. -/
theorem acquire_cases (p : Patience) (word : Int32) :
    (word = free ∧ (acquire p).outcome word = (.ok (), held)) ∨
      (word ≠ free ∧ ∃ e, (acquire p).outcome word = (.error e, word)) := by
  by_cases hfree : word = free
  · exact Or.inl ⟨hfree, hfree ▸ acquire_free p⟩
  · refine Or.inr ⟨hfree, ?_⟩
    have hkeeps (fuel : Nat) (t : Tries) :
        spin p fuel t word = none ∨ ∃ failed, spin p fuel t word = some (.error failed, word) := by
      induction fuel generalizing t with
      | zero => exact Or.inl rfl
      | succ fuel ih =>
        rw [spin, if_neg hfree]
        cases t.afterFailure p with
        | error failed => exact Or.inr ⟨failed, rfl⟩
        | ok later => exact ih later
    rw [acquire, Effect.outcome_ofOutcome]
    rcases hkeeps decidingTries {} with hnone | ⟨failed, hsome⟩
    · rw [hnone]
      exact ⟨_, rfl⟩
    · rw [hsome]
      exact ⟨_, rfl⟩

/-- Under a finite threshold a free word is taken at the first try. On a held one the tries go on
until those that failed are one or the threshold rounded up, whichever is more; there and no sooner
the acquirer gives up with their number. Only a threshold above 2^53 is never reached, and then no
number of tries is enough. The word stays as it was, and when the acquirer sleeps in between makes
no difference. -/
theorem acquisition_ends_at_ceiling (threshold : Rat) (yieldAfterSpins : Number) :
    let p : Patience := ⟨yieldAfterSpins, .finite threshold⟩
    let n := triesUnder threshold
    (n : Int) = max 1 threshold.ceil ∧
    ((∀ fuel, spin p (fuel + 1) {} free = some (.ok (), held)) ∧
      (acquire p).outcome free = (.ok (), held)) ∧
    (threshold ≤ Number.exactBound → ∀ word, word ≠ free →
      (∀ fuel, spin p fuel {} word = if n ≤ fuel then some (.error (.ofCount n), word) else none) ∧
      (acquire p).outcome word = (.error (.failed (.deadlock (some (.ofCount n)))), word)) ∧
    (¬ threshold ≤ Number.exactBound → ∀ word, word ≠ free →
      (∀ fuel, spin p fuel {} word = none) ∧
      (acquire p).outcome word = (.error .endless, word)) ∧
    ∀ other word, (acquire ⟨other, .finite threshold⟩).outcome word = (acquire p).outcome word := by
  intro p n
  refine ⟨?_, ⟨fun fuel => spin_free p fuel {}, acquire_free p⟩, ?_, ?_, ?_⟩
  · have hn : n = max threshold.ceil.toNat 1 := rfl
    omega
  · intro hreached word held
    have hacquire : (acquire p).outcome word = (.error (inVain threshold), word) :=
      acquire_held held rfl
    rw [inVain_of_le hreached] at hacquire
    exact ⟨spin_held held rfl hreached, hacquire⟩
  · intro hbeyond word held
    have hacquire : (acquire p).outcome word = (.error (inVain threshold), word) :=
      acquire_held held rfl
    rw [inVain, if_neg hbeyond] at hacquire
    exact ⟨spin_beyond held rfl hbeyond, hacquire⟩
  · intro other word
    by_cases hfree : word = free
    · rw [hfree, acquire_free, acquire_free]
    · have hother : (acquire ⟨other, .finite threshold⟩).outcome word =
          (.error (inVain threshold), word) := acquire_held hfree rfl
      rw [hother]
      exact (acquire_held hfree rfl).symm

/-- A ceiling of 2^60 tries: the count of those that failed never passes 2^53, and no number of
tries is enough. -/
theorem acquisition_never_ends :
    let p : Patience := ⟨.infinite false, .finite 1152921504606846976⟩
    triesUnder 1152921504606846976 = 1152921504606846976 ∧ held ≠ free ∧
      (∀ fuel, spin p fuel {} held = none) ∧
        (acquire p).outcome held = (.error .endless, held) := by
  intro p
  have hheld : held ≠ free := by decide
  have hbeyond : ¬ (1152921504606846976 : Rat) ≤ Number.exactBound := by decide +kernel
  have hacquire : (acquire p).outcome held = (.error (inVain 1152921504606846976), held) :=
    acquire_held hheld rfl
  rw [inVain, if_neg hbeyond] at hacquire
  exact ⟨by decide +kernel, hheld, spin_beyond hheld rfl hbeyond, hacquire⟩

theorem release_held : release.outcome held = (.ok (), free) := rfl

end Lock

namespace Process

variable {σ α : Type} {view : σ → Int32} {put : σ → Int32 → σ} {p : Patience} {s : σ}

/-- A run that finds the word free: the body runs with the word held, and the word is free
again whether the body succeeds or fails. -/
theorem exclusive_free {body : Process σ α} (free : view s = Lock.free)
    (ends : (body.outcome (put s Lock.held)).1 ≠ .error .endless)
    (kept : view (body.outcome (put s Lock.held)).2 = Lock.held) :
    (exclusive view put p body).outcome s =
      ((body.outcome (put s Lock.held)).1, put (body.outcome (put s Lock.held)).2 Lock.free) := by
  have htaken : ((Lock.acquire p).focus view put).outcome s = (.ok (), put s Lock.held) := by
    rw [Effect.outcome_focus, free, Lock.acquire_free]
  have hreleased : (Lock.release.focus view put).outcome (body.outcome (put s Lock.held)).2 =
      (.ok (), put (body.outcome (put s Lock.held)).2 Lock.free) := by
    rw [Effect.outcome_focus, kept, Lock.release_held]
  rw [exclusive, Effect.outcome_bind_ok htaken, always_ended ends, hreleased]

theorem exclusive_held {threshold : Rat} (held : view s ≠ Lock.free)
    (finite : p.panicThreshold = .finite threshold) (same : put s (view s) = s)
    (body : Process σ α) :
    (exclusive view put p body).outcome s = (.error (Lock.inVain threshold), s) := by
  have hgave :
      ((Lock.acquire p).focus view put).outcome s = (.error (Lock.inVain threshold), s) := by
    rw [Effect.outcome_focus, Lock.acquire_held held finite, same]
  rw [exclusive, Effect.outcome_bind_error hgave]

end Process

end DeviceReports
