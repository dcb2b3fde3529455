import DeviceReports.Proofs.LockPrograms

/-!
# What programs do to lock words

Every moment of a program's run is one of five moves of the bench. So a word is at all times the
acquisitions less the releases that succeeded, and either free or held; a move changes no word but
its own. Exclusive runs that end give the word back whatever their body does to it, through which
lock ever. None of this depends on how long the locks try.

That a program ends does: where every threshold is at most 2^53 it ends, and above that an
acquisition of a held word, and with it the exclusive run, goes on without end.
-/

set_option autoImplicit false

namespace DeviceReports

variable {α : Type}

/-- A finite threshold that the count of failed tries reaches. -/
def Patience.RunsOut (p : Patience) : Prop :=
  ∃ threshold, p.panicThreshold = .finite threshold ∧ threshold ≤ Number.exactBound

namespace LockBench

variable {b c d : LockBench} {e : LockEvent} {i w v : Nat} {l : AttachedLock} {p : Patience}

/-! ### Words -/

@[simp] theorem words_putWord (b : LockBench) (w : Nat) (word : Int32) :
    (putWord w b word).words.length = b.words.length := List.length_set

@[simp] theorem locks_putWord (b : LockBench) (w : Nat) (word : Int32) :
    (putWord w b word).locks = b.locks := rfl

theorem wordAt_putWord_self {word : Int32} (sited : w < b.words.length) :
    (putWord w b word).wordAt w = word := by
  simp [wordAt, putWord, List.getD, sited]

theorem wordAt_putWord_ne (b : LockBench) (word : Int32) (apart : v ≠ w) :
    (putWord w b word).wordAt v = b.wordAt v := by
  simp [wordAt, putWord, List.getD, List.getElem?_set_ne apart.symm]

theorem putWord_wordAt (b : LockBench) (w : Nat) : putWord w b (b.wordAt w) = b := by
  have hset : b.words.set w (b.words.getD w Lock.free) = b.words := by
    apply List.ext_getElem?
    intro v
    by_cases hv : w = v
    · subst hv
      rcases Nat.lt_or_ge w b.words.length with hlt | hge
      · simp [List.getD, hlt]
      · rw [List.set_eq_of_length_le hge]
    · rw [List.getElem?_set_ne hv]
  exact congrArg (fun words => (⟨words, b.locks⟩ : LockBench)) hset

/-- A new word is free, as a word is that is not there. -/
theorem wordAt_append (words : List Int32) (locks : List AttachedLock) (v : Nat) :
    (⟨words ++ [Lock.free], locks⟩ : LockBench).wordAt v =
      (⟨words, locks⟩ : LockBench).wordAt v := by
  change (words ++ [Lock.free]).getD v Lock.free = words.getD v Lock.free
  rcases Nat.lt_trichotomy v words.length with hlt | heq | hgt
  · simp [List.getD, List.getElem?_append_left hlt]
  · simp [List.getD, heq]
  · have hlonger : (words ++ [Lock.free]).length ≤ v := by
      rw [List.length_append, List.length_singleton]
      exact hgt
    simp [List.getD, List.getElem?_eq_none hlonger, List.getElem?_eq_none (Nat.le_of_lt hgt)]

/-! ### Moves -/

/-- Each lock has a word, and each word is free or held. -/
structure Sound (b : LockBench) : Prop where
  sited : ∀ l ∈ b.locks, l.word < b.words.length
  binary : ∀ w, b.wordAt w = Lock.free ∨ b.wordAt w = Lock.held

theorem sound_empty : ({} : LockBench).Sound := ⟨nofun, fun _ => Or.inl rfl⟩

/-- All that can happen to a bench at once. -/
inductive Move (b : LockBench) : LockEvent → LockBench → Prop
  | created (p : Patience) : Move b (.created b.words.length)
      ⟨b.words ++ [Lock.free], b.locks ++ [⟨b.words.length, p⟩]⟩
  | joined {l : AttachedLock} (attached : l ∈ b.locks) (p : Patience) :
      Move b (.joined l.word) { b with locks := b.locks ++ [⟨l.word, p⟩] }
  | acquired {l : AttachedLock} (attached : l ∈ b.locks) (free : b.wordAt l.word = Lock.free) :
      Move b (.acquired l.word) (putWord l.word b Lock.held)
  | released {l : AttachedLock} (attached : l ∈ b.locks) (held : b.wordAt l.word = Lock.held) :
      Move b (.released l.word) (putWord l.word b Lock.free)
  | nothing : Move b .nothing b

theorem Sound.putWord (sound : b.Sound) (sited : w < b.words.length) {word : Int32}
    (binary : word = Lock.free ∨ word = Lock.held) : (putWord w b word).Sound := by
  constructor
  · intro l hl
    rw [words_putWord]
    exact sound.sited l hl
  · intro v
    by_cases hv : v = w
    · rw [hv, wordAt_putWord_self sited]
      exact binary
    · rw [wordAt_putWord_ne b word hv]
      exact sound.binary v

theorem Move.sound (move : Move b e c) (sound : b.Sound) : c.Sound := by
  cases move with
  | created p =>
    constructor
    · intro l hl
      rw [List.length_append, List.length_singleton]
      rcases List.mem_append.mp hl with hold | hnew
      · exact Nat.lt_succ_of_lt (sound.sited l hold)
      · rw [List.mem_singleton.mp hnew]
        exact Nat.lt_succ_self _
    · intro w
      rw [wordAt_append]
      exact sound.binary w
  | @joined l attached p =>
    refine ⟨?_, sound.binary⟩
    intro other hother
    rcases List.mem_append.mp hother with hold | hnew
    · exact sound.sited other hold
    · rw [List.mem_singleton.mp hnew]
      exact sound.sited l attached
  | acquired attached free => exact sound.putWord (sound.sited _ attached) (Or.inr rfl)
  | released attached held => exact sound.putWord (sound.sited _ attached) (Or.inl rfl)
  | nothing => exact sound

/-- A move changes no word but its own. -/
theorem Move.wordAt_ne (move : Move b e c) (apart : e.word? ≠ some v) :
    c.wordAt v = b.wordAt v := by
  cases move with
  | created => exact wordAt_append b.words _ v
  | joined => rfl
  | acquired => exact wordAt_putWord_ne b _ fun h => apart (congrArg some h.symm)
  | released => exact wordAt_putWord_ne b _ fun h => apart (congrArg some h.symm)
  | nothing => rfl

/-- Locks stay where they are. -/
theorem Move.locks_prefix (move : Move b e c) : b.locks <+: c.locks := by
  cases move with
  | created => exact List.prefix_append _ _
  | joined => exact List.prefix_append _ _
  | _ => exact List.prefix_rfl

/-- The acquisitions of a word among some events, or its releases. -/
def acquisitions (w : Nat) (events : List LockEvent) : Nat := events.count (.acquired w)

def releases (w : Nat) (events : List LockEvent) : Nat := events.count (.released w)

theorem Move.counted (move : Move b e c) (sound : b.Sound) (w : Nat) :
    (c.wordAt w).toInt = (b.wordAt w).toInt + acquisitions w [e] - releases w [e] := by
  cases move with
  | created =>
    rw [wordAt_append]
    simp [wordAt, acquisitions, releases]
  | joined => simp [wordAt, acquisitions, releases]
  | @acquired l attached free =>
    by_cases hw : w = l.word
    · rw [hw, wordAt_putWord_self (sound.sited l attached), free]
      simp [acquisitions, releases, Lock.free, Lock.held]
    · simp [wordAt_putWord_ne b _ hw, acquisitions, releases, Ne.symm hw]
  | @released l attached held =>
    by_cases hw : w = l.word
    · rw [hw, wordAt_putWord_self (sound.sited l attached), held]
      simp [acquisitions, releases, Lock.free, Lock.held]
    · simp [wordAt_putWord_ne b _ hw, acquisitions, releases, Ne.symm hw]
  | nothing => simp [acquisitions, releases]

/-! ### Paths -/

/-- Moments that follow one another from a bench on, each by a move. -/
inductive Path : LockBench → List Moment → LockBench → Prop
  | nil (b : LockBench) : Path b [] b
  | cons {b c : LockBench} {m : Moment} {ms : List Moment} (move : Move b m.event m.bench)
      (rest : Path m.bench ms c) : Path b (m :: ms) c

variable {m : Moment} {ms ns before after : List Moment}

theorem Path.single (move : Move b e c) : Path b [⟨e, c⟩] c := .cons move (.nil c)

theorem Path.append (first : Path b ms c) (second : Path c ns d) : Path b (ms ++ ns) d := by
  induction first with
  | nil => exact second
  | cons move _ ih => exact .cons move (ih second)

theorem Path.split (path : Path b (before ++ m :: after) c) :
    ∃ d, Path b before d ∧ Move d m.event m.bench := by
  induction before generalizing b with
  | nil =>
    cases path with
    | cons move _ => exact ⟨b, .nil b, move⟩
  | cons first rest ih =>
    cases path with
    | cons move others =>
      obtain ⟨d, hbefore, hmove⟩ := ih others
      exact ⟨d, .cons move hbefore, hmove⟩

theorem Path.sound (path : Path b ms c) (sound : b.Sound) : c.Sound := by
  induction path with
  | nil => exact sound
  | cons move _ ih => exact ih (move.sound sound)

theorem Path.locks_prefix (path : Path b ms c) : b.locks <+: c.locks := by
  induction path with
  | nil => exact List.prefix_rfl
  | cons move _ ih => exact move.locks_prefix.trans ih

theorem Path.there (path : Path b ms c) (there : b.locks[i]? = some l) : c.locks[i]? = some l := by
  obtain ⟨more, hmore⟩ := path.locks_prefix
  rw [← hmore, List.getElem?_append_left (List.getElem?_eq_some_iff.mp there).1]
  exact there

/-- Along a path each word goes up with its acquisitions and down with its releases. -/
theorem Path.counted (path : Path b ms c) (sound : b.Sound) (w : Nat) :
    (c.wordAt w).toInt = (b.wordAt w).toInt + acquisitions w (ms.map Moment.event) -
      releases w (ms.map Moment.event) := by
  induction path with
  | nil => simp [acquisitions, releases]
  | @cons b c m ms move _ ih =>
    have hrest := ih (move.sound sound)
    have hfirst := move.counted sound w
    simp only [acquisitions, releases, List.map_cons, List.count_cons, List.count_nil] at hfirst ⊢
    simp only [acquisitions, releases] at hrest
    rw [hrest, hfirst]
    push_cast
    omega

/-- The bench at the last of some moments. -/
def lastBench (b : LockBench) : List Moment → LockBench
  | [] => b
  | m :: ms => lastBench m.bench ms

theorem Path.eq_lastBench (path : Path b ms c) : c = lastBench b ms := by
  induction path with
  | nil => rfl
  | cons _ _ ih => exact ih

/-! ### Calls -/

theorem outcome_onWord {act : Process Int32 α} {r : Except Stop α} {word : Int32}
    (run : act.outcome (b.wordAt l.word) = (r, word)) :
    (onWord l act).outcome b = (r, putWord l.word b word) := by
  rw [onWord, Effect.outcome_focus, run]

/-- Acquiring takes a free word and comes to nothing on a held one. -/
theorem acquire_cases (sound : b.Sound) (l : AttachedLock) :
    (b.wordAt l.word = Lock.free ∧ (onWord l (Lock.acquire l.patience)).outcome b =
      (.ok (), putWord l.word b Lock.held)) ∨
    (b.wordAt l.word = Lock.held ∧
      ∃ e, (onWord l (Lock.acquire l.patience)).outcome b = (.error e, b)) := by
  rcases Lock.acquire_cases l.patience (b.wordAt l.word) with ⟨hfree, hrun⟩ | ⟨hnot, e, hrun⟩
  · exact Or.inl ⟨hfree, outcome_onWord hrun⟩
  · refine Or.inr ⟨(sound.binary l.word).resolve_left hnot, e, ?_⟩
    rw [outcome_onWord hrun, putWord_wordAt]

/-- Under a finite threshold the tries for a held word end as their count tells. -/
theorem acquire_refused {threshold : Rat} (held : b.wordAt l.word = Lock.held)
    (finite : l.patience.panicThreshold = .finite threshold) :
    (onWord l (Lock.acquire l.patience)).outcome b = (.error (Lock.inVain threshold), b) := by
  have hnot : b.wordAt l.word ≠ Lock.free := by
    rw [held]
    decide
  rw [outcome_onWord (Lock.acquire_held hnot finite), putWord_wordAt]

/-- A lock that gives up at some time does not try for ever. -/
theorem acquire_ends (sound : b.Sound) (runsOut : l.patience.RunsOut) :
    ((onWord l (Lock.acquire l.patience)).outcome b).1 ≠ .error .endless := by
  rcases acquire_cases sound l with ⟨-, hrun⟩ | ⟨hheld, -⟩
  · rw [hrun]
    exact Process.ended_ok
  · obtain ⟨threshold, hfinite, hreached⟩ := runsOut
    rw [acquire_refused hheld hfinite, Lock.inVain_of_le hreached]
    exact Process.ended_failed

/-- Releasing frees a held word and fails on any other. -/
theorem release_cases (b : LockBench) (l : AttachedLock) :
    (b.wordAt l.word = Lock.held ∧ (onWord l Lock.release).outcome b =
      (.ok (), putWord l.word b Lock.free)) ∨
    (b.wordAt l.word ≠ Lock.held ∧ (onWord l Lock.release).outcome b =
      (.error (.failed (.internal "State lock released while not held")), b)) := by
  by_cases hheld : b.wordAt l.word = Lock.held
  · refine Or.inl ⟨hheld, outcome_onWord ?_⟩
    rw [hheld]
    exact Lock.release_held
  · refine Or.inr ⟨hheld, ?_⟩
    have hfails : Lock.release.outcome (b.wordAt l.word) =
        (.error (.failed (.internal "State lock released while not held")), b.wordAt l.word) := by
      rw [Lock.release, Effect.outcome_ofOutcome, if_neg hheld]
    rw [outcome_onWord hfails, putWord_wordAt]

theorem tryAcquire_cases (b : LockBench) (l : AttachedLock) :
    (b.wordAt l.word = Lock.free ∧ (onWord l Lock.tryAcquire).outcome b =
      (.ok true, putWord l.word b Lock.held)) ∨
    (onWord l Lock.tryAcquire).outcome b = (.ok false, b) := by
  by_cases hfree : b.wordAt l.word = Lock.free
  · refine Or.inl ⟨hfree, outcome_onWord ?_⟩
    rw [Lock.tryAcquire, Effect.outcome_ofOutcome, if_pos hfree]
  · have hrefused : Lock.tryAcquire.outcome (b.wordAt l.word) = (.ok false, b.wordAt l.word) := by
      rw [Lock.tryAcquire, Effect.outcome_ofOutcome, if_neg hfree]
    refine Or.inr ?_
    rw [outcome_onWord hrefused, putWord_wordAt]

theorem addFresh_cases (b : LockBench) (bytes : Nat) (p : Patience) :
    (addFresh bytes p).outcome b =
      (.ok (), ⟨b.words ++ [Lock.free], b.locks ++ [⟨b.words.length, p⟩]⟩) ∨
    ∃ f, (addFresh bytes p).outcome b = (.error (.failed f), b) := by
  by_cases hsmall : bytes < bufferBytes
  · exact Or.inr ⟨_, by rw [addFresh, if_pos hsmall]; rfl⟩
  · rcases hsize : WordBuffer.checkSize bytes with f | ⟨⟩
    · exact Or.inr ⟨f, by rw [addFresh, if_neg hsmall, hsize]; rfl⟩
    · exact Or.inl (by rw [addFresh, if_neg hsmall, hsize]; rfl)

end LockBench

open LockBench

variable {b : LockBench} {i : Nat} {l : AttachedLock}

/-- Every lock on the bench gives up at some time. -/
def LockBench.Patient (b : LockBench) : Prop := ∀ l ∈ b.locks, l.patience.RunsOut

/-- Every lock that a call makes gives up at some time. -/
def LockCall.Patient : LockCall → Prop
  | .new p | .attach _ p | .attachFresh _ p => p.RunsOut
  | .acquire _ | .tryAcquire _ | .release _ | .isLocked _ => True

theorem LockBench.patient_append {words : List Int32} {p : Patience} {w : Nat} (locks : b.Patient)
    (runsOut : p.RunsOut) : LockBench.Patient ⟨words, b.locks ++ [⟨w, p⟩]⟩ := by
  intro l hl
  rcases List.mem_append.mp hl with hold | hnew
  · exact locks l hold
  · rw [List.mem_singleton.mp hnew]
    exact runsOut

/-- How a call goes: what it is counted as is the move that it makes, and it ends if every lock
gives up at some time. -/
structure LockCall.Goes (c : LockCall) (b : LockBench) (r : Except Stop LockAnswer)
    (after : LockBench) : Prop where
  move : Move b (c.event b r) after
  ends : c.Patient → b.Patient → r ≠ .error .endless ∧ after.Patient

/-- A call that changes no lock, and ends. -/
theorem LockCall.goes_of_move {c : LockCall} {r : Except Stop LockAnswer} {after : LockBench}
    (move : Move b (c.event b r) after) (ends : r ≠ .error .endless)
    (same : after.locks = b.locks) : c.Goes b r after := by
  refine ⟨move, fun _ locks => ⟨ends, ?_⟩⟩
  rw [LockBench.Patient, same]
  exact locks

theorem LockBench.wordOf_eq (there : b.locks[i]? = some l) : b.wordOf i = l.word := by
  rw [wordOf, there]

theorem LockBench.mem_of_there (there : b.locks[i]? = some l) : l ∈ b.locks :=
  List.mem_of_getElem? there

/-- A call on a lock that is not there fails and does nothing. -/
theorem LockBench.absent_fails {next : AttachedLock → Process LockBench α}
    (absent : b.locks[i]? = none) :
    (attached i >>= next).outcome b = (.error (.failed noSuchLock), b) :=
  Effect.outcome_bind_error (LockProgram.outcome_attached_none absent) next

theorem LockBench.there_runs {next : AttachedLock → Process LockBench α}
    (there : b.locks[i]? = some l) :
    (attached i >>= next).outcome b = (next l).outcome b :=
  Effect.outcome_bind_ok (LockProgram.outcome_attached_some there) next

theorem LockCall.event_error (c : LockCall) (b : LockBench) (e : Stop) :
    c.event b (.error e) = .nothing := by
  cases c <;> rfl

theorem LockCall.goes_attached {c : LockCall} {next : AttachedLock → Process LockBench LockAnswer}
    (calls : LockBench.step c.step = attached i >>= next)
    (goes : ∀ l, b.locks[i]? = some l → ∃ r after,
      (next l).outcome b = (r, after) ∧ c.Goes b r after) :
    c.Goes b ((LockBench.step c.step).outcome b).1 ((LockBench.step c.step).outcome b).2 := by
  rw [calls]
  rcases hlock : b.locks[i]? with _ | l
  · rw [absent_fails hlock]
    refine goes_of_move ?_ Process.ended_failed rfl
    rw [event_error]
    exact .nothing
  · obtain ⟨r, after, hrun, hgoes⟩ := goes l hlock
    rw [there_runs hlock, hrun]
    exact hgoes

theorem LockCall.goes (sound : b.Sound) (c : LockCall) :
    c.Goes b ((LockBench.step c.step).outcome b).1 ((LockBench.step c.step).outcome b).2 := by
  cases c with
  | new p =>
    exact ⟨.created p, fun runsOut locks => ⟨Process.ended_ok, patient_append locks runsOut⟩⟩
  | attach i p =>
    refine goes_attached rfl fun l hlock => ⟨_, _, rfl, ?_, fun runsOut locks =>
      ⟨Process.ended_ok, patient_append locks runsOut⟩⟩
    change Move b (.joined (b.wordOf i)) _
    rw [wordOf_eq hlock]
    exact .joined (mem_of_there hlock) p
  | attachFresh bytes p =>
    change LockCall.Goes _ b ((addFresh bytes p >>= fun _ => pure LockAnswer.done).outcome b).1
      ((addFresh bytes p >>= fun _ => pure LockAnswer.done).outcome b).2
    rcases addFresh_cases b bytes p with hadd | ⟨f, hadd⟩
    · rw [Effect.outcome_bind_ok hadd]
      exact ⟨.created p, fun runsOut locks => ⟨Process.ended_ok, patient_append locks runsOut⟩⟩
    · rw [Effect.outcome_bind_error hadd]
      exact goes_of_move .nothing Process.ended_failed rfl
  | acquire i =>
    refine goes_attached rfl fun l hlock => ?_
    rcases acquire_cases sound l with ⟨hfree, hrun⟩ | ⟨-, e, hrun⟩
    · refine ⟨_, _, Effect.outcome_bind_ok hrun _, goes_of_move ?_ Process.ended_ok rfl⟩
      change Move b (.acquired (b.wordOf i)) _
      rw [wordOf_eq hlock]
      exact .acquired (mem_of_there hlock) hfree
    · refine ⟨_, _, Effect.outcome_bind_error hrun _, .nothing, fun _ locks => ⟨?_, locks⟩⟩
      rintro ⟨⟩
      exact acquire_ends sound (locks l (mem_of_there hlock)) (by rw [hrun])
  | tryAcquire i =>
    refine goes_attached rfl fun l hlock => ?_
    rcases tryAcquire_cases b l with ⟨hfree, hrun⟩ | hrun
    · refine ⟨_, _, Effect.outcome_bind_ok hrun _, goes_of_move ?_ Process.ended_ok rfl⟩
      change Move b (.acquired (b.wordOf i)) _
      rw [wordOf_eq hlock]
      exact .acquired (mem_of_there hlock) hfree
    · exact ⟨_, _, Effect.outcome_bind_ok hrun _, goes_of_move .nothing Process.ended_ok rfl⟩
  | release i =>
    refine goes_attached rfl fun l hlock => ?_
    rcases release_cases b l with ⟨hheld, hrun⟩ | ⟨-, hrun⟩
    · refine ⟨_, _, Effect.outcome_bind_ok hrun _, goes_of_move ?_ Process.ended_ok rfl⟩
      change Move b (.released (b.wordOf i)) _
      rw [wordOf_eq hlock]
      exact .released (mem_of_there hlock) hheld
    · exact ⟨_, _, Effect.outcome_bind_error hrun _, goes_of_move .nothing Process.ended_failed rfl⟩
  | isLocked i =>
    exact goes_attached rfl fun _ _ => ⟨_, _, rfl, goes_of_move .nothing Process.ended_ok rfl⟩

namespace LockProgram

/-- Every lock that a program makes gives up at some time. -/
def Patient {α : Type} : LockProgram α → Prop
  | .done _ | .look => True
  | .call c => c.Patient
  | .exclusive _ body => body.Patient
  | .andThen first next => first.Patient ∧ ∀ r, (next r).Patient

/-- An exclusive run as its moments show it: a body that left the word held is followed by a
release, any other by a release that fails, and one without end by nothing. -/
theorem watchExclusive_cases (sound : b.Sound) (l : AttachedLock) (body : LockBench → Watched α) :
    (∃ e, b.wordAt l.word = Lock.held ∧
      (onWord l (Lock.acquire l.patience)).outcome b = (.error e, b) ∧
      watchExclusive l body b = ⟨.error e, b, [⟨.nothing, b⟩]⟩) ∨
    b.wordAt l.word = Lock.free ∧
      let taken := putWord l.word b Lock.held
      let inside := body taken
      let entered : List Moment := ⟨.acquired l.word, taken⟩ :: inside.moments
      (inside.result = .error .endless ∧
        watchExclusive l body b = ⟨.error .endless, inside.bench, entered⟩ ∨
      inside.result ≠ .error .endless ∧ inside.bench.wordAt l.word = Lock.held ∧
        watchExclusive l body b = ⟨inside.result, putWord l.word inside.bench Lock.free,
          entered ++ [⟨.released l.word, putWord l.word inside.bench Lock.free⟩]⟩ ∨
      inside.result ≠ .error .endless ∧ inside.bench.wordAt l.word ≠ Lock.held ∧
        watchExclusive l body b =
          ⟨.error (.failed (.internal "State lock released while not held")), inside.bench,
          entered ++ [⟨.nothing, inside.bench⟩]⟩) := by
  rcases acquire_cases sound l with ⟨hfree, htake⟩ | ⟨hheld, e, hgave⟩
  · refine Or.inr ⟨hfree, ?_⟩
    by_cases hends : (body (putWord l.word b Lock.held)).result = .error .endless
    · refine Or.inl ⟨hends, ?_⟩
      rw [watchExclusive, htake]
      dsimp only
      rw [hends]
    · refine Or.inr ?_
      rw [watchExclusive_ended htake hends]
      dsimp only
      rcases release_cases (body (putWord l.word b Lock.held)).bench l with
        ⟨hheld, hrelease⟩ | ⟨hheld, hrelease⟩
      · exact Or.inl ⟨hends, hheld, by rw [hrelease]⟩
      · exact Or.inr ⟨hends, hheld, by rw [hrelease]⟩
  · refine Or.inl ⟨e, hheld, hgave, ?_⟩
    rw [watchExclusive, hgave]

/-- How a program goes: its moments follow one another by moves, and it ends if every lock gives up
at some time. -/
structure Goes (p : LockProgram α) (b : LockBench) (w : Watched α) : Prop where
  path : Path b w.moments w.bench
  ends : p.Patient → b.Patient → w.result ≠ .error .endless ∧ w.bench.Patient

theorem goes_still {p : LockProgram α} {r : Except Stop α} (ends : r ≠ .error .endless) :
    p.Goes b ⟨r, b, []⟩ := ⟨.nil b, fun _ locks => ⟨ends, locks⟩⟩

theorem goes_exclusive {body : LockProgram α} (sound : b.Sound) (there : b.locks[i]? = some l)
    (inside : b.wordAt l.word = Lock.free →
      body.Goes (putWord l.word b Lock.held) (body.watch (putWord l.word b Lock.held))) :
    (exclusive i body).Goes b (watchExclusive l body.watch b) := by
  have hl : l ∈ b.locks := mem_of_there there
  rcases watchExclusive_cases sound l body.watch with ⟨e, -, hgave, hrun⟩ | ⟨hfree, hentered⟩
  · rw [hrun]
    refine ⟨.single .nothing, fun _ locks => ⟨?_, locks⟩⟩
    rintro ⟨⟩
    exact acquire_ends sound (locks l hl) (by rw [hgave])
  · have htake : Move b (.acquired l.word) (putWord l.word b Lock.held) := .acquired hl hfree
    obtain ⟨hpath, hends⟩ := inside hfree
    rcases hentered with ⟨hendless, hrun⟩ | ⟨-, hheld, hrun⟩ | ⟨-, -, hrun⟩
    · rw [hrun]
      exact ⟨.cons htake hpath, fun patient locks => absurd hendless (hends patient locks).1⟩
    · have hkept : l ∈ (body.watch (putWord l.word b Lock.held)).bench.locks :=
        hpath.locks_prefix.subset hl
      rw [hrun]
      exact ⟨(Path.cons htake hpath).append (.single (.released hkept hheld)), hends⟩
    · rw [hrun]
      exact ⟨(Path.cons htake hpath).append (.single .nothing),
        fun patient locks => ⟨Process.ended_failed, (hends patient locks).2⟩⟩

theorem goes_watch (p : LockProgram α) (sound : b.Sound) : p.Goes b (p.watch b) := by
  induction p generalizing b with
  | done result => exact goes_still (Process.ended_mapError result)
  | call c =>
    obtain ⟨hmove, hends⟩ := c.goes sound
    exact ⟨.single hmove, hends⟩
  | look => exact goes_still Process.ended_ok
  | exclusive i body ih =>
    rcases hlock : b.locks[i]? with _ | l
    · rw [watch, hlock]
      exact goes_still Process.ended_failed
    · rw [watch, hlock]
      exact goes_exclusive sound hlock fun hfree =>
        ih ((Move.acquired (mem_of_there hlock) hfree).sound sound)
  | andThen first next ihfirst ihnext =>
    obtain ⟨hpath, hends⟩ := ihfirst sound
    have hnext (r : Except Failure _) := ihnext r (hpath.sound sound)
    rw [watch, watchNext]
    generalize (first.watch b).result = result at hends ⊢
    rcases result with (f | ⟨⟩) | a
    · exact ⟨hpath.append (hnext (.error f)).path, fun patient locks =>
        (hnext (.error f)).ends (patient.2 _) (hends patient.1 locks).2⟩
    · exact ⟨hpath, fun patient locks => absurd rfl (hends patient.1 locks).1⟩
    · exact ⟨hpath.append (hnext (.ok a)).path, fun patient locks =>
        (hnext (.ok a)).ends (patient.2 _) (hends patient.1 locks).2⟩

/-! ### The laws -/

/-- What holds at a moment that comes after others: each word is its acquisitions less its releases
and free or held, locks on one word agree on it, and no word changes but the one that the moment
is about. -/
structure MomentLaw (before : List Moment) (m : Moment) : Prop where
  sound : m.bench.Sound
  counted : ∀ w, (m.bench.wordAt w).toInt =
    acquisitions w ((before ++ [m]).map Moment.event) -
      releases w ((before ++ [m]).map Moment.event)
  binary : ∀ w, (m.bench.wordAt w).toInt = 0 ∨ (m.bench.wordAt w).toInt = 1
  agree : ∀ (i j : Nat) (k l : AttachedLock), m.bench.locks[i]? = some k →
    m.bench.locks[j]? = some l → k.word = l.word → m.bench.locked[i]? = m.bench.locked[j]?
  apart : ∀ w, m.event.word? ≠ some w →
    m.bench.wordAt w = (lastBench {} before).wordAt w

theorem momentLaw_of_path {before : List Moment} {m : Moment} {d : LockBench}
    (path : Path {} before d) (move : Move d m.event m.bench) : MomentLaw before m := by
  have hsound : m.bench.Sound := move.sound (path.sound sound_empty)
  have hpath : Path {} (before ++ [m]) m.bench := path.append (.cons move (.nil _))
  refine ⟨hsound, ?_, ?_, ?_, ?_⟩
  · intro w
    have hcounted := hpath.counted sound_empty w
    have hempty : (({} : LockBench).wordAt w).toInt = 0 := rfl
    rw [hcounted, hempty, Int.zero_add]
  · intro w
    rcases hsound.binary w with hfree | hheld
    · exact Or.inl (by rw [hfree]; rfl)
    · exact Or.inr (by rw [hheld]; rfl)
  · intro i j k l hk hl hword
    simp [locked, hk, hl, hword]
  · intro w happart
    rw [← path.eq_lastBench]
    exact move.wordAt_ne happart

/-- How an exclusive run of a lock goes, whatever its body does. -/
structure ExclusiveLaw (b : LockBench) (i : Nat) (l : AttachedLock) (body : LockProgram α) :
    Prop where
  /-- Once the run has ended, the lock is locked exactly if it was before. -/
  restored : ((exclusive i body).run.outcome b).1 ≠ .error .endless →
    ((exclusive i body).run.outcome b).2.locked[i]? = b.locked[i]?
  /-- On a held lock the body is not run: the lock gives up, unless its count of failed tries stands
  still below the threshold. -/
  refused : b.wordAt l.word = Lock.held →
    ((exclusive i body).run.outcome b).2 = b ∧
      ((exclusive i body).watch b).moments = [⟨.nothing, b⟩] ∧
      ∀ threshold, l.patience.panicThreshold = .finite threshold →
        ((exclusive i body).run.outcome b).1 = .error (Lock.inVain threshold)
  endless : b.wordAt l.word = Lock.free →
    (body.run.outcome (putWord l.word b Lock.held)).1 = .error .endless →
      ((exclusive i body).run.outcome b).1 = .error .endless
  freed : b.wordAt l.word = Lock.free →
    (body.run.outcome (putWord l.word b Lock.held)).1 ≠ .error .endless →
      ((exclusive i body).run.outcome b).2.wordAt l.word = Lock.free
  /-- The own result or failure of a body that ends comes out if it left the lock held. -/
  own : b.wordAt l.word = Lock.free →
    (body.run.outcome (putWord l.word b Lock.held)).1 ≠ .error .endless →
    (body.run.outcome (putWord l.word b Lock.held)).2.wordAt l.word = Lock.held →
      ((exclusive i body).run.outcome b).1 = (body.run.outcome (putWord l.word b Lock.held)).1
  replaced : b.wordAt l.word = Lock.free →
    (body.run.outcome (putWord l.word b Lock.held)).1 ≠ .error .endless →
    (body.run.outcome (putWord l.word b Lock.held)).2.wordAt l.word ≠ Lock.held →
      ((exclusive i body).run.outcome b).1 =
        .error (.failed (.internal "State lock released while not held"))

theorem locked_of_there (there : b.locks[i]? = some l) :
    b.locked[i]? = some (Lock.isLocked (b.wordAt l.word)) := by
  simp [locked, there]

theorem exclusiveLaw_of_held {e : Stop} {body : LockProgram α} (held : b.wordAt l.word = Lock.held)
    (gave : (onWord l (Lock.acquire l.patience)).outcome b = (.error e, b))
    (seen : (exclusive i body).watch b = ⟨.error e, b, [⟨.nothing, b⟩]⟩) :
    ExclusiveLaw b i l body := by
  have hrun : (exclusive i body).run.outcome b = (.error e, b) := by rw [outcome_run, seen]
  have hnot : b.wordAt l.word ≠ Lock.free := by
    rw [held]
    decide
  refine ⟨fun _ => by rw [hrun], fun _ => ⟨by rw [hrun], by rw [seen], ?_⟩, ?_, ?_, ?_, ?_⟩
  · intro threshold hfinite
    cases gave.symm.trans (acquire_refused held hfinite)
    rw [hrun]
  all_goals exact fun hfree => absurd hfree hnot

/-- Whether the release fails or not, the word is free after a body that ends. -/
theorem exclusiveLaw_of_free {body : LockProgram α} (sound : b.Sound)
    (there : b.locks[i]? = some l) (free : b.wordAt l.word = Lock.free) :
    ExclusiveLaw b i l body := by
  have htaken : (putWord l.word b Lock.held).Sound :=
    (Move.acquired (mem_of_there there) free).sound sound
  have hpath := (goes_watch body htaken).path
  have hkept : (body.watch (putWord l.word b Lock.held)).bench.locks[i]? = some l :=
    hpath.there there
  have hsound := hpath.sound htaken
  have hwatch : (exclusive i body).watch b = watchExclusive l body.watch b := by
    rw [watch, there]
  have hbody := outcome_run body (putWord l.word b Lock.held)
  have hrefused (hheld : b.wordAt l.word = Lock.held) : False := by
    rw [free] at hheld
    exact absurd hheld (by decide)
  rcases watchExclusive_cases sound l body.watch with ⟨e, hheld, -⟩ | ⟨-, hentered⟩
  · exact (hrefused hheld).elim
  · have hrun := outcome_run (exclusive i body) b
    rw [hwatch] at hrun
    rcases hentered with ⟨hendless, hseen⟩ | ⟨hends, hheld, hseen⟩ | ⟨hends, hother, hseen⟩ <;>
      rw [hseen] at hrun
    · refine ⟨fun h => absurd (by rw [hrun]) h, fun h => (hrefused h).elim, ?_, ?_, ?_, ?_⟩ <;>
        rw [hbody, hrun]
      · exact fun _ _ => rfl
      all_goals exact fun _ hends => absurd hendless hends
    · have hfree : (putWord l.word (body.watch (putWord l.word b Lock.held)).bench
          Lock.free).wordAt l.word = Lock.free :=
        wordAt_putWord_self (hsound.sited l (mem_of_there hkept))
      refine ⟨fun _ => ?_, fun h => (hrefused h).elim, ?_, ?_, ?_, ?_⟩ <;> rw [hrun]
      · rw [locked_of_there (b := putWord _ _ _) hkept, hfree, locked_of_there there, free]
      · rw [hbody]
        exact fun _ => id
      · exact fun _ _ => hfree
      · rw [hbody]
        exact fun _ _ _ => rfl
      · rw [hbody]
        exact fun _ _ hother => absurd hheld hother
    · have hfree := (hsound.binary l.word).resolve_right hother
      refine ⟨fun _ => ?_, fun h => (hrefused h).elim, ?_, ?_, ?_, ?_⟩ <;> rw [hrun]
      · rw [locked_of_there hkept, hfree, locked_of_there there, free]
      · rw [hbody]
        exact fun _ hendless => absurd hendless hends
      · exact fun _ _ => hfree
      · rw [hbody]
        exact fun _ _ hheld => absurd hheld hother
      · exact fun _ _ _ => rfl

theorem exclusiveLaw (sound : b.Sound) (there : b.locks[i]? = some l) (body : LockProgram α) :
    ExclusiveLaw b i l body := by
  rcases acquire_cases sound l with ⟨hfree, -⟩ | ⟨hheld, e, hgave⟩
  · exact exclusiveLaw_of_free sound there hfree
  · refine exclusiveLaw_of_held hheld hgave ?_
    rw [watch, there]
    dsimp only
    rw [watchExclusive, hgave]

/-- Every program of lock steps that starts from nothing keeps the law at each of its moments, and
every exclusive run keeps its own: the benches that a program passes are sound, and from a sound
bench the law of exclusive runs holds for each lock and each body. If every lock gives up at some
time, the program ends. -/
theorem lock_programs_keep_words :
    (∀ {α : Type} (p : LockProgram α),
      p.run.outcome {} = ((p.watch {}).result, (p.watch {}).bench) ∧
      (p.watch {}).bench = lastBench {} (p.watch {}).moments ∧
      ∀ before m after, (p.watch {}).moments = before ++ m :: after → MomentLaw before m) ∧
    (∀ b : LockBench, b.Sound → ∀ i l, b.locks[i]? = some l →
      ∀ {α : Type} (body : LockProgram α), ExclusiveLaw b i l body) ∧
    ∀ b : LockBench, b.Sound → b.Patient → ∀ {α : Type} (p : LockProgram α), p.Patient →
      (p.run.outcome b).1 ≠ .error .endless := by
  refine ⟨?_, ?_, ?_⟩
  · intro α p
    have hpath := (goes_watch p sound_empty).path
    refine ⟨outcome_run p {}, hpath.eq_lastBench, ?_⟩
    intro before m after hmoments
    rw [hmoments] at hpath
    obtain ⟨d, hbefore, hmove⟩ := hpath.split
    exact momentLaw_of_path hbefore hmove
  · intro b sound i l there α body
    exact exclusiveLaw sound there body
  · intro b sound locks α p patient
    rw [outcome_run]
    exact ((goes_watch p sound).ends patient locks).1

/-! ### Steps of a bench -/

mutual

/-- Every lock that a step or the steps in it make gives up at some time. -/
def PatientStep : LockStep → Prop
  | .new p | .attach _ p | .attachFresh _ p => p.RunsOut
  | .runExclusive _ body _ => PatientSteps body
  | .acquire _ | .tryAcquire _ | .release _ | .isLocked _ => True

def PatientSteps : List LockStep → Prop
  | [] => True
  | s :: rest => PatientStep s ∧ PatientSteps rest

end

theorem patient_raising {body : LockProgram (List LockRecord)} (patient : body.Patient)
    (raises : Option String) : (raising body raises).Patient := by
  refine ⟨patient, ?_⟩
  intro r
  rcases r with e | records
  · trivial
  · cases raises <;> trivial

theorem patient_recording {first : LockProgram LockAnswer} {others : LockProgram (List LockRecord)}
    (patient : first.Patient) (rest : others.Patient) : (recording first others).Patient := by
  refine ⟨patient, fun _ => ⟨trivial, ?_⟩⟩
  intro seen
  rcases seen with e | seen
  · trivial
  · refine ⟨rest, ?_⟩
    intro r
    rcases r with e | records <;> trivial

mutual

theorem patient_ofStep (s : LockStep) (patient : PatientStep s) : (ofStep s).Patient := by
  cases s with
  | new p => exact patient
  | attach i p => exact patient
  | attachFresh bytes p => exact patient
  | runExclusive i body raises => exact patient_raising (patient_ofSteps body patient) raises
  | _ => trivial

theorem patient_ofSteps (program : List LockStep) (patient : PatientSteps program) :
    (ofSteps program).Patient := by
  cases program with
  | nil => trivial
  | cons s rest =>
    exact patient_recording (patient_ofStep s patient.1) (patient_ofSteps rest patient.2)

end

/-- Two locks on one word. The body of the first exclusive run releases the word through the other
lock and takes it again; inside it an exclusive run of the other lock is refused. The body of the
second leaves the word free. -/
def aliased : List LockStep :=
  [.new ⟨.ofCount 1, .ofCount 3⟩, .attach 0 ⟨.ofCount 1, .ofCount 3⟩,
    .runExclusive 0 [.release 1, .tryAcquire 1, .runExclusive 1 [.release 0] none] (some "raised"),
    .runExclusive 0 [.release 1] none]

/-- The bench on which the second of these runs begins. -/
def shared : LockBench :=
  ⟨[Lock.free], [⟨0, ⟨.ofCount 1, .ofCount 3⟩⟩, ⟨0, ⟨.ofCount 1, .ofCount 3⟩⟩]⟩

theorem runsOut_three : Patience.RunsOut ⟨.ofCount 1, .ofCount 3⟩ := ⟨3, rfl, by decide +kernel⟩

theorem sound_shared : shared.Sound := by
  refine ⟨by simp [shared], ?_⟩
  intro w
  cases w with
  | zero => exact Or.inl rfl
  | succ w => exact Or.inl rfl

theorem lock_programs_aliased :
    (∀ before m after, ((ofSteps aliased).watch {}).moments = before ++ m :: after →
      MomentLaw before m) ∧
    shared.Sound ∧
      ExclusiveLaw shared 0 ⟨0, ⟨.ofCount 1, .ofCount 3⟩⟩ (ofSteps [.release 1]) ∧
    shared.Patient ∧ (ofSteps aliased).Patient ∧
      ((ofSteps aliased).run.outcome shared).1 ≠ .error .endless := by
  have haliased : (ofSteps aliased).Patient :=
    patient_ofSteps aliased ⟨runsOut_three, runsOut_three,
      ⟨trivial, trivial, ⟨trivial, trivial⟩, trivial⟩, ⟨trivial, trivial⟩, trivial⟩
  have hlocks : shared.Patient := by
    intro l hl
    rcases List.mem_pair.mp hl with rfl | rfl <;> exact runsOut_three
  exact ⟨(lock_programs_keep_words.1 (ofSteps aliased)).2.2, sound_shared,
    lock_programs_keep_words.2.1 shared sound_shared 0 _ rfl _, hlocks, haliased,
    lock_programs_keep_words.2.2 shared sound_shared hlocks _ haliased⟩

end LockProgram

/-! ### Thresholds above 2^53 -/

namespace LockBench

variable {b c d : LockBench} {s : LockStep} {rest : List LockStep}

/-- A step without end is the last of its program. -/
theorem steps_endless (first : (step s).outcome b = (.error .endless, c)) :
    (steps (s :: rest)).outcome b = (.error .endless, c) := by
  rw [steps, Effect.outcome_bind_error (Process.attempt_endless first)]

theorem steps_cons_endless {a : LockAnswer} (first : (step s).outcome b = (.ok a, c))
    (others : (steps rest).outcome c = (.error .endless, d)) :
    (steps (s :: rest)).outcome b = (.error .endless, d) := by
  rw [steps, Effect.outcome_bind_ok (Process.attempt_ok first),
    Effect.outcome_bind_ok (Effect.outcome_get _), Effect.outcome_bind_error others]

/-- An exclusive run on a held word neither fails nor returns where the threshold is finite and
above 2^53, here 2^60. -/
theorem exclusive_run_never_ends :
    let p : Patience := ⟨.infinite false, .finite 1152921504606846976⟩
    let taken : LockBench := ⟨[Lock.held], [⟨0, p⟩]⟩
    taken.wordAt 0 = Lock.held ∧
      (step (.runExclusive 0 [] none)).outcome taken = (.error .endless, taken) ∧
      run [.new p, .acquire 0, .runExclusive 0 [] none] = .error .endless := by
  intro p taken
  have hheld : taken.wordAt 0 ≠ Lock.free := by decide
  have hbeyond : ¬ (1152921504606846976 : Rat) ≤ Number.exactBound := by decide +kernel
  have hrun : (step (.runExclusive 0 [] none)).outcome taken = (.error .endless, taken) := by
    have hvain : Lock.inVain 1152921504606846976 = .endless := if_neg hbeyond
    rw [step, there_runs rfl, ← hvain]
    refine Process.exclusive_held ?_ rfl ?_ _
    · exact hheld
    · exact putWord_wordAt taken 0
  have hacquired : (step (.acquire 0)).outcome ⟨[Lock.free], [⟨0, p⟩]⟩ = (.ok .done, taken) := by
    rw [step, there_runs rfl, Effect.outcome_bind_ok (outcome_onWord (Lock.acquire_free p))]
    rfl
  have hcreated : (step (.new p)).outcome {} = (.ok .done, ⟨[Lock.free], [⟨0, p⟩]⟩) := rfl
  refine ⟨rfl, hrun, ?_⟩
  rw [run, steps_cons_endless hcreated (steps_cons_endless hacquired (steps_endless hrun))]

end LockBench
end DeviceReports
