import DeviceReports.Proofs.LockWord
import DeviceReports.Proofs.Windows
import DeviceReports.Report.Builtin

/-!
# What the reports print

A rendering has no other way to its buffer than to print into it. Each report but the one on
named objects is a list of pieces that the device and the settings determine before anything
is printed: the pins that the queue report sets while it prints show in its rows alone. The
named object report looks at its buffer before each row.
-/

set_option autoImplicit false

namespace DeviceReports

variable {σ α : Type}

namespace Piece

/-- The texts of pieces, up to the first piece that failed. -/
def texts : List Piece → List Text
  | [] => []
  | .ok t :: rest => t :: texts rest
  | .error _ :: _ => []

/-- How printing pieces ends: with the failure of the first that failed. -/
def ending : List Piece → Except Stop Unit
  | [] => .ok ()
  | .ok _ :: rest => ending rest
  | .error e :: _ => .error (.failed e)

/-- Printing goes on with later pieces only where no earlier one failed. -/
theorem append_cases (ps qs : List Piece) :
    (ending ps = .ok () ∧ ending (ps ++ qs) = ending qs ∧ texts (ps ++ qs) = texts ps ++ texts qs) ∨
      ∃ e, ending ps = .error (.failed e) ∧ ending (ps ++ qs) = .error (.failed e) ∧
        texts (ps ++ qs) = texts ps := by
  induction ps with
  | nil => exact Or.inl ⟨rfl, rfl, rfl⟩
  | cons p rest ih =>
    cases p with
    | error e => exact Or.inr ⟨e, rfl, rfl, rfl⟩
    | ok t =>
      rcases ih with ⟨hall, hending, htexts⟩ | ⟨e, hfailed, hending, htexts⟩
      · exact Or.inl ⟨hall, hending, congrArg (t :: ·) htexts⟩
      · exact Or.inr ⟨e, hfailed, hending, congrArg (t :: ·) htexts⟩

theorem ending_ne_endless (ps : List Piece) : ending ps ≠ .error .endless := by
  induction ps with
  | nil => exact Process.ended_ok
  | cons p rest ih =>
    cases p with
    | ok t => exact ih
    | error e => exact Process.ended_failed

/-! ### Pieces that are all texts -/

theorem joined_ok (ts : List Text) : joined (ts.map Except.ok) = .ok ts.flatten := by
  induction ts with
  | nil => rfl
  | cons t rest ih =>
    rw [List.map_cons, joined, ih]
    rfl

theorem texts_ok (ts : List Text) : texts (ts.map Except.ok) = ts := by
  induction ts with
  | nil => rfl
  | cons t rest ih => rw [List.map_cons, texts, ih]

theorem ending_ok (ts : List Text) : ending (ts.map Except.ok) = .ok () := by
  induction ts with
  | nil => rfl
  | cons t rest ih => rw [List.map_cons, ending, ih]

end Piece

namespace ReportBuffer

@[simp] theorem printAll_nil (b : ReportBuffer) : b.printAll [] = b := rfl

@[simp] theorem printAll_cons (b : ReportBuffer) (t : Text) (ts : List Text) :
    b.printAll (t :: ts) = (b.printed t).printAll ts := rfl

theorem printAll_append (b : ReportBuffer) (ts us : List Text) :
    b.printAll (ts ++ us) = (b.printAll ts).printAll us := List.foldl_append

end ReportBuffer

namespace Rendering

theorem outcome_state (s : σ) (out : ReportBuffer) :
    (state : Rendering σ σ).outcome (s, out) = (.ok s, (s, out)) := rfl

theorem outcome_output (s : σ) (out : ReportBuffer) :
    (output : Rendering σ ReportBuffer).outcome (s, out) = (.ok out, (s, out)) := rfl

/-- From a state, the rendering prints the pieces up to the first that failed into any sound
buffer, ends as they do, and leaves the state as it was. -/
def Shows (render : Rendering σ Unit) (s : σ) (ps : List Piece) : Prop :=
  ∀ out : ReportBuffer, out.Sound →
    render.outcome (s, out) = (Piece.ending ps, (s, out.printAll (Piece.texts ps)))

variable {s : σ} {first second : Rendering σ Unit} {ps qs : List Piece}

theorem shows_nothing (s : σ) : Shows (pure ()) s [] := fun _ _ => rfl

theorem shows_piece (p : Piece) (s : σ) : Shows (piece p) s [p] := by
  intro out sound
  cases p with
  | ok t =>
    rw [piece, Effect.outcome_bind_ok (Process.outcome_ok t _), outcome_print t s sound]
    rfl
  | error e => rw [piece, Effect.outcome_bind_error (Process.outcome_error e _)]; rfl

theorem Shows.andThen (shown : Shows first s ps) (next : Shows second s qs) :
    Shows (do first; second) s (ps ++ qs) := by
  intro out sound
  have hfirst := shown out sound
  rcases Piece.append_cases ps qs with ⟨hall, hending, htexts⟩ | ⟨e, hfailed, hending, htexts⟩
  · rw [hall] at hfirst
    rw [Effect.outcome_bind_ok hfirst, next _ (sound.printAll _), hending, htexts,
      ReportBuffer.printAll_append]
  · rw [hfailed] at hfirst
    rw [Effect.outcome_bind_error hfirst, hending, htexts]

theorem shows_printEach (ps : List Piece) (s : σ) : Shows (printEach ps) s ps := by
  induction ps with
  | nil => exact shows_nothing s
  | cons p rest ih => exact (shows_piece p s).andThen ih

/-! ### Printing only -/

/-- Wherever the rendering starts and however it ends, its buffer was only printed into. -/
def Prints (render : Rendering σ α) : Prop :=
  ∀ s out, ∃ ts, (render.outcome (s, out)).2.2 = out.printAll ts

theorem prints_pure (a : α) : Prints (pure a : Rendering σ α) := fun _ _ => ⟨[], rfl⟩

theorem prints_fail (e : Failure) : Prints (Process.fail e : Rendering σ α) := fun _ _ => ⟨[], rfl⟩

theorem prints_ofExcept (r : Except Failure α) : Prints (Process.ofExcept r : Rendering σ α) :=
  fun _ _ => ⟨[], rfl⟩

theorem prints_state : Prints (state : Rendering σ σ) := fun _ _ => ⟨[], rfl⟩

theorem prints_output : Prints (output : Rendering σ ReportBuffer) := fun _ _ => ⟨[], rfl⟩

theorem prints_onState (act : Process σ α) : Prints (onState act) := fun _ _ => ⟨[], rfl⟩

theorem prints_print (t : Text) : Prints (print t : Rendering σ Unit) := fun _ _ => ⟨[t], rfl⟩

theorem Prints.bind {β : Type} {x : Rendering σ α} {f : α → Rendering σ β} (first : Prints x)
    (next : ∀ a, Prints (f a)) : Prints (x >>= f) := by
  intro s out
  obtain ⟨ts, hts⟩ := first s out
  rcases hrun : x.outcome (s, out) with ⟨e | a, t, printed⟩ <;> rw [hrun] at hts <;> subst hts
  · exact ⟨ts, by rw [Effect.outcome_bind_error hrun]⟩
  · obtain ⟨us, hus⟩ := next a t (out.printAll ts)
    exact ⟨ts ++ us, by rw [Effect.outcome_bind_ok hrun, hus, ReportBuffer.printAll_append]⟩

theorem prints_piece (p : Piece) : Prints (piece p : Rendering σ Unit) :=
  (prints_ofExcept p).bind prints_print

theorem prints_printEach (ps : List Piece) : Prints (printEach ps : Rendering σ Unit) := by
  induction ps with
  | nil => exact prints_pure ()
  | cons p rest ih => exact (prints_piece p).bind fun _ => ih

theorem Prints.always {body : Rendering σ α} {final : Rendering σ Unit} (prints : Prints body)
    (last : Prints final) : Prints (body.always final) := by
  intro s out
  obtain ⟨ts, hts⟩ := prints s out
  by_cases hends : (body.outcome (s, out)).1 = .error .endless
  · exact ⟨ts, by rw [Process.always_endless hends, hts]⟩
  · obtain ⟨us, hus⟩ := last (body.outcome (s, out)).2.1 (body.outcome (s, out)).2.2
    refine ⟨ts ++ us, ?_⟩
    rw [Process.always_ended hends, ReportBuffer.printAll_append, ← hts, ← hus]
    split <;> next hfinal => exact (congrArg (·.2.2) hfinal).symm

/-- Taking a lock and giving it back does not touch the buffer. -/
theorem Prints.exclusive {body : Rendering σ α} (prints : Prints body)
    {view : σ × ReportBuffer → Int32} {put : σ × ReportBuffer → Int32 → σ × ReportBuffer}
    (apart : ∀ st word, (put st word).2 = st.2) (p : Patience) :
    Prints (Process.exclusive view put p body) := by
  have hfocus {τ : Type} (act : Process Int32 τ) : Prints (act.focus view put) :=
    fun s out => ⟨[], apart _ _⟩
  exact (hfocus _).bind fun _ => prints.always (hfocus _)

end Rendering

namespace Report

/-- A report that prints pieces of the device as it stands and leaves the device so. -/
def Lists (r : Report) (pieces : Settings → Device → List Piece) : Prop :=
  ∀ s d, Rendering.Shows (r.generate s) d (pieces s d)

theorem lists_ofPieces (name : String) (requiresLock : Bool)
    (pieces : Settings → Device → List Piece) :
    (ofPieces name requiresLock pieces).Lists pieces := by
  intro s d out sound
  rw [ofPieces]
  dsimp only
  rw [Effect.outcome_bind_ok (Rendering.outcome_state d out)]
  exact Rendering.shows_printEach _ d out sound

namespace Queues

theorem unpin_pin (q : JobQueue) : unpin (pin q) = q := by
  have hword : q.useCount.word + 1 - 1 = q.useCount.word := Int32.add_sub_cancel _ _
  simp [unpin, pin, Counter.increment, Counter.decrement, hword]

/-- Unpinning what was pinned gives the queues back, wherever the count stood. -/
theorem modify_unpin_pin (queues : List JobQueue) (i : Nat) :
    (queues.modify i pin).modify i unpin = queues := by
  induction queues generalizing i with
  | nil => simp
  | cons q rest ih =>
    cases i with
    | zero => simp [unpin_pin]
    | succ i => simp [ih]

/-- The row of the queue at a position as it is printed, with the queue pinned; none past the
last queue. -/
def rowAt (queues : List JobQueue) (i : Nat) : List Piece :=
  match queues[i]? with
  | some q => [row i (pin q)]
  | none => []

/-- The pieces of the report: each row shows its queue with the pin. -/
def pieces (d : Device) : List Piece :=
  header :: (List.range d.queues.length).flatMap (rowAt d.queues)

theorem shows_printRow (i : Nat) (d : Device) :
    Rendering.Shows (printRow i) d
      (match d.queues[i]? with | some q => [row i q] | none => []) := by
  intro out sound
  rw [printRow, Effect.outcome_bind_ok (Rendering.outcome_state d out)]
  cases d.queues[i]? with
  | none => rfl
  | some q => exact Rendering.shows_piece (row i q) d out sound

/-- A row is printed with its queue pinned, and the pin is gone afterwards even where the row
could not be formatted. -/
theorem shows_pinnedRow (i : Nat) (d : Device) :
    Rendering.Shows (pinnedRow i) d (rowAt d.queues i) := by
  intro out sound
  have hpin : (Rendering.onState (onQueue i pin)).outcome (d, out) =
      (.ok (), ({ d with queues := d.queues.modify i pin }, out)) := rfl
  have hpinned : (d.queues.modify i pin)[i]? = (d.queues[i]?).map pin := by
    rw [List.getElem?_modify_eq]
    rfl
  have hrow := shows_printRow i { d with queues := d.queues.modify i pin } out sound
  have hpieces : (match (d.queues.modify i pin)[i]? with | some q => [row i q] | none => []) =
      rowAt d.queues i := by
    rw [hpinned, rowAt]
    cases d.queues[i]? <;> rfl
  rw [hpieces] at hrow
  have hends : ((printRow i).outcome ({ d with queues := d.queues.modify i pin }, out)).1 ≠
      .error .endless := by
    rw [hrow]
    exact Piece.ending_ne_endless _
  rw [pinnedRow, Effect.outcome_bind_ok hpin, Process.always_ended hends, hrow]
  change (Piece.ending (rowAt d.queues i),
    ({ d with queues := (d.queues.modify i pin).modify i unpin }, _)) = _
  rw [modify_unpin_pin]

theorem shows_printRows (positions : List Nat) (d : Device) :
    Rendering.Shows (printRows positions) d (positions.flatMap (rowAt d.queues)) := by
  induction positions with
  | nil => exact Rendering.shows_nothing d
  | cons i rest ih => exact (shows_pinnedRow i d).andThen ih

theorem lists : report.Lists fun _ => pieces := by
  intro s d
  have hrows : Rendering.Shows
      (do
        let d ← Rendering.state
        printRows (List.range d.queues.length)) d
      ((List.range d.queues.length).flatMap (rowAt d.queues)) := by
    intro out sound
    rw [Effect.outcome_bind_ok (Rendering.outcome_state d out)]
    exact shows_printRows _ d out sound
  exact (Rendering.shows_piece header d).andThen hrows

end Queues

namespace Accounting

/-- The device after the memory controller was asked once. -/
def queried (d : Device) : Device := (query.outcome d).2

theorem generate_answered (s : Settings) {d : Device} {status : MemoryStatus}
    (answers : (query.outcome d).1 = .ok status) {out : ReportBuffer} (sound : out.Sound) :
    (report.generate s).outcome (d, out) =
      (Piece.ending (pieces s (queried d) status),
        (queried d, out.printAll (Piece.texts (pieces s (queried d) status)))) := by
  have hquery : (Rendering.onState query).outcome (d, out) = (.ok status, (queried d, out)) := by
    rw [Rendering.onState, Effect.outcome_focus, answers]
    rfl
  rw [report]
  dsimp only
  rw [Effect.outcome_bind_ok hquery, Effect.outcome_bind_ok (Rendering.outcome_state _ out)]
  exact Rendering.shows_printEach _ _ out sound

/-- Where the controller gives no answer, nothing is printed. -/
theorem generate_unanswered (s : Settings) {d : Device} {stop : Stop}
    (stops : (query.outcome d).1 = .error stop) (out : ReportBuffer) :
    (report.generate s).outcome (d, out) = (.error stop, (queried d, out)) := by
  have hquery : (Rendering.onState query).outcome (d, out) = (.error stop, (queried d, out)) := by
    rw [Rendering.onState, Effect.outcome_focus, stops]
    rfl
  rw [report]
  dsimp only
  rw [Effect.outcome_bind_error hquery]

end Accounting

namespace NamedObjects

open Column

/-- The text of a row: no figure keeps it from being formatted. -/
def rowText (o : NamedObject) : Text :=
  decimal o.name 6 ++ (decimal o.size 9 ++ (decimal o.handleCount.number 8 ++
    (decimal o.refCount.number 9 ++ Text.ofString "\n")))

theorem row_eq (o : NamedObject) : row o = .ok (rowText o) := by
  simp [row, rowText, Piece.joined]
  rfl

/-- The rows that are printed into a buffer: those it has room for under its limit when their
turn comes. -/
def rowsInto (out : ReportBuffer) : List NamedObject → List Text
  | [] => []
  | o :: rest =>
    if out.overflowed then rowsInto out rest
    else rowText o :: rowsInto (out.printed (rowText o)) rest

theorem outcome_printRows (objects : List NamedObject) (d : Device) {out : ReportBuffer}
    (sound : out.Sound) :
    (printRows objects).outcome (d, out) = (.ok (), (d, out.printAll (rowsInto out objects))) := by
  induction objects generalizing out with
  | nil => rfl
  | cons o rest ih =>
    rw [printRows, Effect.outcome_bind_ok (Rendering.outcome_output d out), rowsInto]
    by_cases hover : out.overflowed = true
    · rw [if_pos hover, if_pos hover]
      exact ih sound
    · have hrow := Rendering.shows_piece (.ok (rowText o)) d out sound
      rw [if_neg hover, if_neg hover, row_eq, Effect.outcome_bind_ok hrow]
      exact ih (sound.printed (rowText o))

def headerText : Text := Text.ofString "  name     size handles refcount\n"

theorem outcome_generate (s : Settings) (d : Device) {out : ReportBuffer} (sound : out.Sound) :
    (report.generate s).outcome (d, out) =
      (.ok (), (d, out.printAll (headerText :: rowsInto (out.printed headerText) d.objects))) := by
  rw [report]
  dsimp only
  rw [Effect.outcome_bind_ok (Rendering.shows_piece header d out sound),
    Effect.outcome_bind_ok (Rendering.outcome_state _ _)]
  exact outcome_printRows d.objects d (sound.printed headerText)

end NamedObjects
end Report

end DeviceReports
