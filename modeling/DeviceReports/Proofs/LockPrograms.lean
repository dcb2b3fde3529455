import DeviceReports.Lock.Bench
import DeviceReports.Proofs.LockWord

/-!
# Programs of lock steps

A program calls locks one after the other, runs other programs with a lock held, and goes on as it
likes from what a part of it returned or failed with. So a failure inside an exclusive run may end
its body or be caught there, at any depth. The steps of a bench are such programs.

A program is run on a bench. Watching it gives the same outcome and beside it the moments of the
run: what happened to which word, and the bench at that moment. A part that goes on without end is
the last of its run.
-/

set_option autoImplicit false

namespace DeviceReports

variable {α β : Type}

/-- A lock step that runs no other steps. -/
inductive LockCall where
  | new (patience : Patience)
  | attach (lock : Nat) (patience : Patience)
  | attachFresh (bytes : Nat) (patience : Patience)
  | acquire (lock : Nat)
  | tryAcquire (lock : Nat)
  | release (lock : Nat)
  | isLocked (lock : Nat)

def LockCall.step : LockCall → LockStep
  | .new p => .new p
  | .attach i p => .attach i p
  | .attachFresh bytes p => .attachFresh bytes p
  | .acquire i => .acquire i
  | .tryAcquire i => .tryAcquire i
  | .release i => .release i
  | .isLocked i => .isLocked i

inductive LockProgram : Type → Type 1 where
  | done {α : Type} (result : Except Failure α) : LockProgram α
  | call (c : LockCall) : LockProgram LockAnswer
  | look : LockProgram (List Bool)
  | exclusive {α : Type} (lock : Nat) (body : LockProgram α) : LockProgram α
  | andThen {α β : Type} (first : LockProgram β) (next : Except Failure β → LockProgram α) :
      LockProgram α

/-- What happens to the word of a lock. -/
inductive LockEvent where
  | created (word : Nat)
  | joined (word : Nat)
  | acquired (word : Nat)
  | released (word : Nat)
  | nothing
deriving DecidableEq

def LockEvent.word? : LockEvent → Option Nat
  | .created w | .joined w | .acquired w | .released w => some w
  | .nothing => none

/-- An event, and the bench right after it. -/
structure Moment where
  event : LockEvent
  bench : LockBench

/-- What a program returns or fails with, the bench it leaves, and the moments of its run. A program
without end has the bench on which it goes on. -/
structure Watched (α : Type) where
  result : Except Stop α
  bench : LockBench
  moments : List Moment

namespace LockBench

/-- The word of a lock that is there. -/
def wordOf (b : LockBench) (i : Nat) : Nat :=
  match b.locks[i]? with
  | some l => l.word
  | none => b.words.length

end LockBench

/-- What a call comes to: acquiring and releasing count where they succeed. -/
def LockCall.event (c : LockCall) (b : LockBench) (r : Except Stop LockAnswer) : LockEvent :=
  match c, r with
  | .new _, .ok _ | .attachFresh _ _, .ok _ => .created b.words.length
  | .attach i _, .ok _ => .joined (b.wordOf i)
  | .acquire i, .ok _ | .tryAcquire i, .ok (.flag true) => .acquired (b.wordOf i)
  | .release i, .ok _ => .released (b.wordOf i)
  | _, _ => .nothing

namespace LockProgram

open LockBench

def run {α : Type} : LockProgram α → Process LockBench α
  | .done result => Process.ofExcept result
  | .call c => LockBench.step c.step
  | .look => do pure (← get).locked
  | .exclusive i body => do
    let l ← attached i
    Process.exclusive (wordAt · l.word) (putWord l.word) l.patience body.run
  | .andThen first next => do (next (← first.run.attempt)).run

/-- An exclusive run: what happens to the word before the body and after it. -/
def watchExclusive (l : AttachedLock) (body : LockBench → Watched α) (b : LockBench) : Watched α :=
  match (onWord l (Lock.acquire l.patience)).outcome b with
  | (.error e, after) => ⟨.error e, after, [⟨.nothing, after⟩]⟩
  | (.ok (), taken) =>
    let inside := body taken
    let entered : List Moment := ⟨.acquired l.word, taken⟩ :: inside.moments
    match inside.result with
    | .error .endless => ⟨.error .endless, inside.bench, entered⟩
    | result =>
      match (onWord l Lock.release).outcome inside.bench with
      | (.error e, after) => ⟨.error e, after, entered ++ [⟨.nothing, after⟩]⟩
      | (.ok (), after) => ⟨result, after, entered ++ [⟨.released l.word, after⟩]⟩

/-- A part that has been watched, and what its program does behind it. -/
def watchNext (before : Watched β) (next : Except Failure β → LockBench → Watched α) : Watched α :=
  let following (r : Except Failure β) : Watched α :=
    let after := next r before.bench
    ⟨after.result, after.bench, before.moments ++ after.moments⟩
  match before.result with
  | .ok a => following (.ok a)
  | .error (.failed f) => following (.error f)
  | .error .endless => ⟨.error .endless, before.bench, before.moments⟩

def watch {α : Type} : LockProgram α → LockBench → Watched α
  | .done result, b => ⟨result.mapError .failed, b, []⟩
  | .call c, b =>
    let (r, after) := (LockBench.step c.step).outcome b
    ⟨r, after, [⟨c.event b r, after⟩]⟩
  | .look, b => ⟨.ok b.locked, b, []⟩
  | .exclusive i body, b =>
    match b.locks[i]? with
    | none => ⟨.error (.failed noSuchLock), b, []⟩
    | some l => watchExclusive l body.watch b
  | .andThen first next, b => watchNext (first.watch b) fun r => (next r).watch

theorem run_exclusive (i : Nat) (body : LockProgram α) :
    (exclusive i body).run = (do
      let l ← attached i
      Process.exclusive (wordAt · l.word) (putWord l.word) l.patience body.run) := rfl

theorem run_andThen (first : LockProgram β) (next : Except Failure β → LockProgram α) :
    (andThen first next).run = (do (next (← first.run.attempt)).run) := rfl

section Outcomes

variable {first : LockProgram β} {b c : LockBench}

theorem outcome_andThen_ok {x : β} (run : first.run.outcome b = (.ok x, c))
    (next : Except Failure β → LockProgram α) :
    (andThen first next).run.outcome b = (next (.ok x)).run.outcome c :=
  Effect.outcome_bind_ok (Process.attempt_ok run) _

theorem outcome_andThen_failed {f : Failure} (run : first.run.outcome b = (.error (.failed f), c))
    (next : Except Failure β → LockProgram α) :
    (andThen first next).run.outcome b = (next (.error f)).run.outcome c :=
  Effect.outcome_bind_ok (Process.attempt_failed run) _

theorem outcome_andThen_endless (run : first.run.outcome b = (.error .endless, c))
    (next : Except Failure β → LockProgram α) :
    (andThen first next).run.outcome b = (.error .endless, c) :=
  Effect.outcome_bind_error (Process.attempt_endless run) _

end Outcomes

/-- Where the body ends, the word is released behind it. -/
theorem watchExclusive_ended {l : AttachedLock} {body : LockBench → Watched α} {b taken : LockBench}
    (take : (onWord l (Lock.acquire l.patience)).outcome b = (.ok (), taken))
    (ends : (body taken).result ≠ .error .endless) :
    watchExclusive l body b =
      let inside := body taken
      let entered : List Moment := ⟨.acquired l.word, taken⟩ :: inside.moments
      match (onWord l Lock.release).outcome inside.bench with
      | (.error e, after) => ⟨.error e, after, entered ++ [⟨.nothing, after⟩]⟩
      | (.ok (), after) => ⟨inside.result, after, entered ++ [⟨.released l.word, after⟩]⟩ := by
  rw [watchExclusive, take]
  dsimp only
  generalize (body taken).result = result at ends ⊢
  rcases result with (f | ⟨⟩) | a
  · rfl
  · exact absurd rfl ends
  · rfl

/-! ### Watching changes nothing -/

theorem outcome_attached_some {b : LockBench} {i : Nat} {l : AttachedLock}
    (there : b.locks[i]? = some l) : (attached i).outcome b = (.ok l, b) := by
  rw [attached, Effect.outcome_bind_ok (Effect.outcome_get b), there]
  rfl

theorem outcome_attached_none {b : LockBench} {i : Nat} (absent : b.locks[i]? = none) :
    (attached i).outcome b = (.error (.failed noSuchLock), b) := by
  rw [attached, Effect.outcome_bind_ok (Effect.outcome_get b), absent]
  rfl

theorem outcome_exclusive (l : AttachedLock) {body : Process LockBench α}
    {seen : LockBench → Watched α}
    (same : ∀ b, body.outcome b = ((seen b).result, (seen b).bench)) (b : LockBench) :
    (Process.exclusive (wordAt · l.word) (putWord l.word) l.patience body).outcome b =
      ((watchExclusive l seen b).result, (watchExclusive l seen b).bench) := by
  change (onWord l (Lock.acquire l.patience) >>= fun _ =>
    body.always (onWord l Lock.release)).outcome b = _
  rw [watchExclusive]
  rcases htake : (onWord l (Lock.acquire l.patience)).outcome b with ⟨e | ⟨⟩, taken⟩
  · exact Effect.outcome_bind_error htake _
  · rw [Effect.outcome_bind_ok htake, Process.always, Effect.outcome_ofOutcome, same taken]
    dsimp only
    rcases (seen taken).result with (f | ⟨⟩) | a <;> dsimp only
    · rcases (onWord l Lock.release).outcome (seen taken).bench with ⟨e | ⟨⟩, after⟩ <;> rfl
    · rcases (onWord l Lock.release).outcome (seen taken).bench with ⟨e | ⟨⟩, after⟩ <;> rfl

/-- Watching a program is running it. -/
theorem outcome_run (p : LockProgram α) (b : LockBench) :
    p.run.outcome b = ((p.watch b).result, (p.watch b).bench) := by
  induction p generalizing b with
  | done result => rfl
  | call c => rfl
  | look => rfl
  | exclusive i body ih =>
    rcases hlock : b.locks[i]? with _ | l
    · rw [run_exclusive, Effect.outcome_bind_error (outcome_attached_none hlock), watch, hlock]
    · rw [run_exclusive, Effect.outcome_bind_ok (outcome_attached_some hlock), watch, hlock]
      exact outcome_exclusive l ih b
  | andThen first next ihfirst ihnext =>
    have hfirst := ihfirst b
    rw [watch, watchNext]
    rcases hresult : (first.watch b).result with (f | ⟨⟩) | a
    · rw [hresult] at hfirst
      exact (outcome_andThen_failed hfirst next).trans (ihnext _ _)
    · rw [hresult] at hfirst
      exact outcome_andThen_endless hfirst next
    · rw [hresult] at hfirst
      exact (outcome_andThen_ok hfirst next).trans (ihnext _ _)

/-! ### The steps of a bench -/

/-- The records of a body, or the failure that it raises after its steps. -/
def raising (body : LockProgram (List LockRecord)) (raises : Option String) :
    LockProgram LockAnswer :=
  .andThen body fun
    | .error e => .done (.error e)
    | .ok records =>
      match raises with
      | some message => .done (.error (.plain message))
      | none => .done (.ok (.steps records))

/-- A first step and the others. What it answers or fails with is taken down with the state of
every lock, and a failure of its own does not keep the others from being made. -/
def recording (first : LockProgram LockAnswer) (others : LockProgram (List LockRecord)) :
    LockProgram (List LockRecord) :=
  .andThen first fun result =>
    .andThen .look fun
      | .error e => .done (.error e)
      | .ok seen =>
        .andThen others fun
          | .error e => .done (.error e)
          | .ok records => .done (.ok (.mk result seen :: records))

mutual

/-- A lock step as a program. -/
def ofStep : LockStep → LockProgram LockAnswer
  | .new p => .call (.new p)
  | .attach i p => .call (.attach i p)
  | .attachFresh bytes p => .call (.attachFresh bytes p)
  | .acquire i => .call (.acquire i)
  | .tryAcquire i => .call (.tryAcquire i)
  | .release i => .call (.release i)
  | .isLocked i => .call (.isLocked i)
  | .runExclusive i body raises => .exclusive i (raising (ofSteps body) raises)

/-- Lock steps in order as one program. -/
def ofSteps : List LockStep → LockProgram (List LockRecord)
  | [] => .done (.ok [])
  | s :: rest => recording (ofStep s) (ofSteps rest)

end

theorem run_raising {body : LockProgram (List LockRecord)} {program : List LockStep}
    (same : body.run = LockBench.steps program) (raises : Option String) :
    (raising body raises).run = (do
      let records ← LockBench.steps program
      match raises with
      | some message => Process.fail (.plain message)
      | none => pure (.steps records)) := by
  refine Effect.ext_outcome fun b => ?_
  rw [← same, raising]
  rcases hbody : body.run.outcome b with ⟨(f | ⟨⟩) | records, t⟩
  · rw [outcome_andThen_failed hbody, Effect.outcome_bind_error hbody]
    rfl
  · rw [outcome_andThen_endless hbody, Effect.outcome_bind_error hbody]
  · rw [outcome_andThen_ok hbody, Effect.outcome_bind_ok hbody]
    cases raises <;> rfl

theorem run_recording {first : LockProgram LockAnswer} {others : LockProgram (List LockRecord)}
    {s : LockStep} {rest : List LockStep} (sameFirst : first.run = LockBench.step s)
    (sameOthers : others.run = LockBench.steps rest) :
    (recording first others).run = LockBench.steps (s :: rest) := by
  rw [recording, run_andThen, LockBench.steps, ← sameFirst, ← sameOthers]
  refine bind_congr fun result => Effect.ext_outcome fun b => ?_
  rw [outcome_andThen_ok (Effect.outcome_bind_ok (Effect.outcome_get b) _),
    Effect.outcome_bind_ok (Effect.outcome_get b)]
  rcases hrest : others.run.outcome b with ⟨(f | ⟨⟩) | records, t⟩
  · rw [outcome_andThen_failed hrest, Effect.outcome_bind_error hrest]
    rfl
  · rw [outcome_andThen_endless hrest, Effect.outcome_bind_error hrest]
  · rw [outcome_andThen_ok hrest, Effect.outcome_bind_ok hrest]
    rfl

mutual

theorem run_ofStep (s : LockStep) : (ofStep s).run = LockBench.step s := by
  cases s with
  | runExclusive i body raises =>
    rw [ofStep, run_exclusive, run_raising (run_ofSteps body)]
    rfl
  | _ => rfl

theorem run_ofSteps (program : List LockStep) :
    (ofSteps program).run = LockBench.steps program := by
  cases program with
  | nil => rfl
  | cons s rest => exact run_recording (run_ofStep s) (run_ofSteps rest)

end

end LockProgram
end DeviceReports
