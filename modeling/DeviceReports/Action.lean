import DeviceReports.Failure

/-!
# Actions and processes

An action changes a state and may fail. The state reached before a failure is kept, so what
was written or counted up to that point stays visible. A process may moreover go on without
end: nothing that stands behind it is reached then, and its state is the one it goes on in.
-/

set_option autoImplicit false

namespace DeviceReports

/-- A change of a state that ends in a result or in an `ε`. -/
abbrev Effect (ε σ α : Type) := ExceptT ε (StateM σ) α

abbrev Action (σ α : Type) := Effect Failure σ α

/-- How a process comes to no result. -/
inductive Stop where
  | failed (f : Failure)
  | endless
deriving Inhabited

abbrev Process (σ α : Type) := Effect Stop σ α

variable {ε σ τ α : Type}

namespace Effect

/-- Runs an effect to its result and the state it leaves. -/
def outcome (act : Effect ε σ α) (s : σ) : Except ε α × σ := StateT.run (ExceptT.run act) s

def ofOutcome (f : σ → Except ε α × σ) : Effect ε σ α := ExceptT.mk fun s => f s

def ofExcept (r : Except ε α) : Effect ε σ α := ofOutcome fun s => (r, s)

/-- Runs an effect on one part of a larger state. -/
def focus (view : σ → τ) (put : σ → τ → σ) (act : Effect ε τ α) : Effect ε σ α :=
  ofOutcome fun s =>
    let (r, t) := act.outcome (view s)
    (r, put s t)

end Effect

namespace Action

def fail (f : Failure) : Action σ α := throw f

/-- The failure or result of an action as a value; the action itself does not fail. -/
def attempt (act : Action σ α) : Action σ (Except Failure α) :=
  Effect.ofOutcome fun s =>
    let (r, s) := act.outcome s
    (.ok r, s)

end Action

namespace Process

def fail (f : Failure) : Process σ α := throw (.failed f)

def ofExcept (r : Except Failure α) : Process σ α := Effect.ofExcept (r.mapError .failed)

/-- An action as a process, which ends. -/
def ofAction (act : Action σ α) : Process σ α :=
  Effect.ofOutcome fun s =>
    let (r, s) := act.outcome s
    (r.mapError .failed, s)

/-- Runs `final` after `body`, whether that succeeds or fails. A failure of `final` takes the
place of the body's result or failure. -/
def always (body : Process σ α) (final : Process σ Unit) : Process σ α :=
  Effect.ofOutcome fun s =>
    match body.outcome s with
    | (.error .endless, s) => (.error .endless, s)
    | (r, s) =>
      match final.outcome s with
      | (.error e, s) => (.error e, s)
      | (.ok (), s) => (r, s)

/-- The failure or result of a process as a value; the process itself does not fail. -/
def attempt (act : Process σ α) : Process σ (Except Failure α) :=
  Effect.ofOutcome fun s =>
    match act.outcome s with
    | (.ok a, s) => (.ok (.ok a), s)
    | (.error (.failed f), s) => (.ok (.error f), s)
    | (.error .endless, s) => (.error .endless, s)

end Process

end DeviceReports
