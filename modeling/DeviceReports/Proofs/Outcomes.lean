import DeviceReports.Action

/-!
# Outcomes of actions and processes

What each way of building an effect does to a state, as equations that run one step. An
effect is known by its outcomes: two that have the same outcome from every state are equal.
-/

set_option autoImplicit false

namespace DeviceReports

variable {ε σ τ α β : Type}

theorem eq_ok_of_toOption {r : Except ε α} {a : α} (h : r.toOption = some a) : r = .ok a := by
  cases r with
  | error e => cases h
  | ok b => exact congrArg Except.ok (Option.some.inj h)

namespace Effect

theorem ext_outcome {x y : Effect ε σ α} (h : ∀ s, x.outcome s = y.outcome s) : x = y := funext h

@[simp] theorem outcome_pure (a : α) (s : σ) :
    outcome (pure a : Effect ε σ α) s = (.ok a, s) := rfl

theorem outcome_bind_ok {x : Effect ε σ α} {s t : σ} {a : α} (h : x.outcome s = (.ok a, t))
    (f : α → Effect ε σ β) : (x >>= f).outcome s = (f a).outcome t := by
  change (ExceptT.bindCont f (x.outcome s).1 : StateM σ (Except ε β)) (x.outcome s).2 = _
  rw [h]
  rfl

theorem outcome_bind_error {x : Effect ε σ α} {s t : σ} {e : ε}
    (h : x.outcome s = (.error e, t)) (f : α → Effect ε σ β) :
    (x >>= f).outcome s = (.error e, t) := by
  change (ExceptT.bindCont f (x.outcome s).1 : StateM σ (Except ε β)) (x.outcome s).2 = _
  rw [h]
  rfl

/-- Two steps that return are taken apart. -/
theorem exists_of_bind_outcome {x : Effect ε σ α} {f : α → Effect ε σ β} {s u : σ} {b : β}
    (h : (x >>= f).outcome s = (.ok b, u)) :
    ∃ a t, x.outcome s = (.ok a, t) ∧ (f a).outcome t = (.ok b, u) := by
  rcases hx : x.outcome s with ⟨e | a, t⟩
  · cases (outcome_bind_error hx f).symm.trans h
  · exact ⟨a, t, rfl, (outcome_bind_ok hx f).symm.trans h⟩

@[simp] theorem outcome_ofOutcome (f : σ → Except ε α × σ) (s : σ) :
    (ofOutcome f).outcome s = f s := rfl

@[simp] theorem outcome_ofExcept (r : Except ε α) (s : σ) :
    (ofExcept r).outcome s = (r, s) := rfl

@[simp] theorem outcome_get (s : σ) : (get : Effect ε σ σ).outcome s = (.ok s, s) := rfl

@[simp] theorem outcome_modify (f : σ → σ) (s : σ) :
    (modify f : Effect ε σ Unit).outcome s = (.ok (), f s) := rfl

theorem outcome_focus (view : σ → τ) (put : σ → τ → σ) (act : Effect ε τ α) (s : σ) :
    (act.focus view put).outcome s =
      ((act.outcome (view s)).1, put s (act.outcome (view s)).2) := rfl

end Effect

namespace Action

@[simp] theorem outcome_fail (e : Failure) (s : σ) :
    (fail e : Action σ α).outcome s = (.error e, s) := rfl

theorem outcome_attempt (act : Action σ α) (s : σ) :
    act.attempt.outcome s = (.ok (act.outcome s).1, (act.outcome s).2) := rfl

end Action

namespace Process

@[simp] theorem outcome_fail (e : Failure) (s : σ) :
    (fail e : Process σ α).outcome s = (.error (.failed e), s) := rfl

@[simp] theorem outcome_ofExcept (r : Except Failure α) (s : σ) :
    (ofExcept r : Process σ α).outcome s = (r.mapError .failed, s) := rfl

theorem outcome_ok (a : α) (s : σ) :
    (ofExcept (.ok a) : Process σ α).outcome s = (.ok a, s) := rfl

theorem outcome_error (e : Failure) (s : σ) :
    (ofExcept (.error e) : Process σ α).outcome s = (.error (.failed e), s) := rfl

theorem outcome_ofAction (act : Action σ α) (s : σ) :
    (ofAction act).outcome s = ((act.outcome s).1.mapError .failed, (act.outcome s).2) := rfl

/-! ### Ends -/

theorem ended_ok {a : α} : (.ok a : Except Stop α) ≠ .error .endless := by simp

theorem ended_failed {f : Failure} : (.error (.failed f) : Except Stop α) ≠ .error .endless := by
  simp

theorem ended_mapError (r : Except Failure α) : r.mapError Stop.failed ≠ .error .endless := by
  cases r with
  | ok a => exact ended_ok
  | error e => exact ended_failed

section Attempt

variable {act : Process σ α} {s t : σ}

theorem attempt_ok {a : α} (run : act.outcome s = (.ok a, t)) :
    act.attempt.outcome s = (.ok (.ok a), t) := by
  rw [attempt, Effect.outcome_ofOutcome, run]

theorem attempt_failed {f : Failure} (run : act.outcome s = (.error (.failed f), t)) :
    act.attempt.outcome s = (.ok (.error f), t) := by
  rw [attempt, Effect.outcome_ofOutcome, run]

theorem attempt_endless (run : act.outcome s = (.error .endless, t)) :
    act.attempt.outcome s = (.error .endless, t) := by
  rw [attempt, Effect.outcome_ofOutcome, run]

end Attempt

section Always

variable {body : Process σ α} {final : Process σ Unit} {s : σ}

/-- A body that ends is followed by what stands behind it. -/
theorem always_ended (ends : (body.outcome s).1 ≠ .error .endless) :
    (body.always final).outcome s =
      match final.outcome (body.outcome s).2 with
      | (.error e, t) => (.error e, t)
      | (.ok (), t) => ((body.outcome s).1, t) := by
  rw [always, Effect.outcome_ofOutcome]
  rcases hrun : body.outcome s with ⟨(_ | _) | _, t⟩
  · rfl
  · exact absurd (congrArg Prod.fst hrun) ends
  · rfl

theorem always_endless (goes : (body.outcome s).1 = .error .endless) :
    (body.always final).outcome s = body.outcome s := by
  rw [always, Effect.outcome_ofOutcome]
  rcases hrun : body.outcome s with ⟨r, t⟩
  obtain rfl : r = .error .endless := by rw [← goes, hrun]
  rfl

end Always

end Process

end DeviceReports
