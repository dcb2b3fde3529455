import DeviceReports.Proofs.Draining
import DeviceReports.Proofs.Untouched
import DeviceReports.Report.Script

/-!
# Sessions as reads of one state

A session answers what one-shot reads would have answered in the state in which it was opened,
whatever happens to the device and to other sessions afterwards, and once closed it has ended.
A report may be of any kind, as long as it does no more with its buffer than print into it.
-/

set_option autoImplicit false

namespace DeviceReports

open Text (Bytes)

variable {σ δ : Type}

/-! ### Draining one content -/

namespace Reader

/-- Reads in a state that leave the state alone and are all answered from one content. -/
def Answers (r : Reader σ) (s : σ) (sizeLimit : Nat) (content : Bytes) : Prop :=
  ∀ offset length, offset < Number.exactBound → length < Number.exactBound →
    (r.read (.ofCount offset) (.ofCount length)).outcome s =
      (.ok (if sizeLimit < offset then .ending else .ofContent content offset length), s)

variable {r : Reader σ} {s : σ} {sizeLimit c : Nat} {content : Bytes}

/-- What is drained from one content does not depend on the span, as long as the content does
not pass it. -/
theorem drain_of_answers (answers : r.Answers s sizeLimit content)
    (small : content.length ≤ ReportBuffer.mostBytes) (within : content.length ≤ r.span)
    (pos : 1 ≤ c) (exact : c < Number.exactBound) :
    (r.drain (.ofCount c)).outcome s = (.ok (content.take (c * (sizeLimit / c + 1))), s) := by
  obtain ⟨last, ends, goes⟩ := Reading.exists_last sizeLimit pos fun _ => content
  have hbefore {k : Nat} (hk : k ≤ last) (h0 : 0 < k) : k * c < content.length := by
    obtain ⟨j, rfl⟩ : ∃ j, k = j + 1 := ⟨k - 1, by omega⟩
    exact Nat.lt_of_not_le (not_or.mp (goes j (by omega))).2
  have hoffset {k : Nat} (hk : k ≤ last) : k * c < Number.exactBound := by
    rcases Nat.eq_zero_or_pos k with rfl | h0
    · rw [Nat.zero_mul]
      decide
    · have hlt := hbefore hk h0
      unfold ReportBuffer.mostBytes at small
      omega
  have hsteps : Steps r c last (fun _ => s) (Reading.chunkAt sizeLimit c fun _ => content) :=
    { read := fun k hk => answers (k * c) c (hoffset hk) exact
      full := fun k hk => by
        refine ⟨?_, Reading.chunkAt_full (goes k hk)⟩
        rw [Bool.eq_false_iff]
        exact mt (Reading.chunkAt_eof _ _ _ _).mp (goes k hk)
      ends := (Reading.chunkAt_eof _ _ _ _).mpr ends }
  have hfuel : last < r.span / c + 2 := by
    rcases Nat.eq_zero_or_pos last with rfl | h0
    · exact Nat.succ_pos _
    · have hlt := hbefore (Nat.le_refl last) h0
      have hdiv : last ≤ r.span / c := (Nat.le_div_iff_mul_le pos).mpr (by omega)
      omega
  rw [drain_of_steps hsteps pos exact hfuel, Reading.flatMap_chunkAt sizeLimit pos ends goes]

/-- The reader whose every read finds the same state. -/
def frozen (r : Reader σ) (s : σ) : Reader Unit where
  read offset length := Effect.ofExcept ((r.read offset length).outcome s).1
  span := r.span

theorem frozen_read (r : Reader σ) (s : σ) (offset length : Number) :
    ((r.frozen s).read offset length).outcome () = (((r.read offset length).outcome s).1, ()) := rfl

theorem drainFrom_frozen (keeps : ∀ offset length, ((r.read offset length).outcome s).2 = s)
    (size fuel offset : Nat) :
    (((r.frozen s).drainFrom size fuel offset).outcome ()).1 =
      ((r.drainFrom size fuel offset).outcome s).1 := by
  induction fuel generalizing offset with
  | zero => rfl
  | succ fuel ih =>
    have hkeeps := keeps (.ofCount offset) (.ofCount size)
    have hfrozen := r.frozen_read s (.ofCount offset) (.ofCount size)
    rcases hread : (r.read (.ofCount offset) (.ofCount size)).outcome s with ⟨e | chunk, t⟩ <;>
      rw [hread] at hkeeps hfrozen <;> dsimp only at hkeeps <;> subst hkeeps
    · rw [drainFrom, drainFrom, Effect.outcome_bind_error hread, Effect.outcome_bind_error hfrozen]
    · rw [drainFrom, drainFrom, Effect.outcome_bind_ok hread, Effect.outcome_bind_ok hfrozen]
      split
      · rfl
      · have hrest := ih (offset + chunk.bytes.length)
        rcases hlater : (r.drainFrom size fuel (offset + chunk.bytes.length)).outcome t with
          ⟨e | rest, u⟩ <;> rw [hlater] at hrest
        · rw [Effect.outcome_bind_error hlater, Effect.outcome_bind_error (Prod.ext hrest rfl)]
        · rw [Effect.outcome_bind_ok hlater, Effect.outcome_bind_ok (Prod.ext hrest rfl)]
          rfl

/-- Draining a reader whose reads leave the state is draining it frozen in that state. -/
theorem drain_frozen (keeps : ∀ offset length, ((r.read offset length).outcome s).2 = s)
    (chunkSize : Number) :
    (((r.frozen s).drain chunkSize).outcome ()).1 = ((r.drain chunkSize).outcome s).1 := by
  rw [drain, drain]
  split
  · exact drainFrom_frozen keeps _ _ _
  · rfl

end Reader

/-! ### One session -/

/-- A rendering that only prints, within natural bounds: the buffer holds what was printed. -/
theorem Rendering.fresh_prints {render : Rendering σ Unit} (prints : render.Prints)
    {sizeLimit capacity : Nat} {s t : σ} {out : ReportBuffer}
    (rendered : (fresh (Bounds.ofCounts sizeLimit capacity) render).outcome s = (.ok out, t)) :
    ∃ ts, out = (Bounds.buffer sizeLimit capacity).printAll ts := by
  obtain ⟨ts, hts⟩ := prints s (Bounds.buffer sizeLimit capacity)
  refine ⟨ts, ?_⟩
  rw [Reading.fresh_ofCounts, Rendering.into] at rendered
  rcases hrun : render.outcome (s, Bounds.buffer sizeLimit capacity) with ⟨e | done, u, printed⟩ <;>
    rw [hrun] at rendered hts
  · cases rendered
  · cases rendered
    exact hts

namespace Session

variable {name : String} {out : ReportBuffer} {s t : σ}

/-- A session refuses a bad range, open or closed. -/
theorem read_refused {offset length : Number} {e : Failure}
    (refused : Reading.checkRange offset length = .error e) (x : Session) :
    x.read offset length = .error e := by
  rw [read, refused]
  rfl

theorem read_open {offset length : Number} (valid : Reading.checkRange offset length = .ok ()) :
    (ofBuffer name out).read offset length =
      .ok (if out.limit < offset then .ending else out.window offset length) := by
  have hread : (ofBuffer name out).read offset length =
      if out.limit < offset then pure .ending else pure (out.window offset length) := by
    rw [read, valid]
    rfl
  rw [hread]
  split <;> rfl

theorem read_closed {offset length : Number} (valid : Reading.checkRange offset length = .ok ())
    (x : Session) : x.close.read offset length = .ok .ending := by
  rw [read, valid]
  rfl

/-- A window of a session is that of a one-shot read that renders the same buffer. -/
theorem read_ofBuffer {b : Bounds} {render : Rendering σ Unit}
    (rendered : (Rendering.fresh b render).outcome s = (.ok out, t))
    (limit : out.limit = b.sizeLimit)
    (offset length : Number) :
    ((ofBuffer name out).read offset length).mapError .failed =
      ((Reading.read b render offset length).outcome s).1 := by
  rw [Reading.read]
  rcases hcheck : Reading.checkRange offset length with e | u
  · rw [read_refused hcheck, Effect.outcome_bind_error (Process.outcome_error e s)]
    rfl
  · rw [read_open hcheck, Effect.outcome_bind_ok (Process.outcome_ok u s), ← limit]
    split
    · rfl
    · rw [Effect.outcome_bind_ok rendered]
      rfl

variable {sizeLimit capacity : Nat} {ts : List Text}

/-- An open session answers every valid read from what was printed. -/
theorem answers_ofBuffer :
    (ofBuffer name ((Bounds.buffer sizeLimit capacity).printAll ts)).reader.Answers () sizeLimit
      (Bounds.contentOf sizeLimit capacity ts) := by
  intro offset length ho hl
  have hlimit : ((Bounds.buffer sizeLimit capacity).printAll ts).limit = .ofCount sizeLimit :=
    ((Bounds.sound_buffer sizeLimit capacity).bounds_printAll ts).1
  rw [reader]
  dsimp only
  rw [read_open (Reading.checkRange_ofCount ho hl), Process.outcome_ok, hlimit,
    Bounds.window_printAll]
  simp only [Number.ofCount_lt_ofCount]

/-- A session that only ever printed is drained as one-shot reads that find the same rendering
each time, in steps of any size. -/
theorem readAll_ofBuffer {render : Rendering σ Unit} (prints : render.Prints)
    (rendered : (Rendering.fresh (Bounds.ofCounts sizeLimit capacity) render).outcome s =
      (.ok out, t)) (chunkSize : Number) :
    (ofBuffer name out).readAll chunkSize =
      ((((Reading.reader (Bounds.ofCounts sizeLimit capacity) render).frozen s).drain
        chunkSize).outcome ()).1 := by
  obtain ⟨ts, rfl⟩ := Rendering.fresh_prints prints rendered
  have hlimit : ((Bounds.buffer sizeLimit capacity).printAll ts).limit =
      (Bounds.ofCounts sizeLimit capacity).sizeLimit :=
    ((Bounds.sound_buffer sizeLimit capacity).bounds_printAll ts).1
  have hsession : (ofBuffer name _).reader.Answers () sizeLimit
      (Bounds.contentOf sizeLimit capacity ts) := answers_ofBuffer
  have hfrozen : ((Reading.reader (Bounds.ofCounts sizeLimit capacity) render).frozen s).Answers ()
      sizeLimit (Bounds.contentOf sizeLimit capacity ts) := by
    intro offset length ho hl
    rw [← hsession offset length ho hl]
    exact congrArg (·, ()) (read_ofBuffer rendered hlimit _ _).symm
  have hlength := Bounds.contentOf_length_le sizeLimit capacity ts
  have hspan : ((Reading.reader (Bounds.ofCounts sizeLimit capacity) render).frozen s).span =
      min capacity ReportBuffer.mostBytes := ReportBuffer.capacityOf_ofCount capacity
  have hsmall := hlength.trans (Nat.min_le_right _ _)
  rcases hcount : chunkSize.count? with _ | _ | c
  · rw [readAll, Reader.drain, Reader.drain, hcount]
  · rw [readAll, Reader.drain, Reader.drain, hcount]
  · obtain ⟨rfl, hexact⟩ := Number.eq_ofCount_of_count? hcount
    rw [readAll,
      Reader.drain_of_answers hsession hsmall (Nat.le_of_eq (ReportBuffer.length_content _))
        (Nat.succ_pos c) hexact,
      Reader.drain_of_answers hfrozen hsmall (hspan ▸ hlength) (Nat.succ_pos c) hexact]

/-- A closed session drains to nothing, in steps of any size that a drain admits. -/
theorem readAll_closed (x : Session) (chunkSize : Number) :
    x.close.readAll chunkSize =
      match chunkSize.count? with
      | some (_ + 1) => .ok []
      | _ => .error (.failed (.readRange (some 0) (some chunkSize))) := by
  rcases hcount : chunkSize.count? with _ | _ | c
  · rw [readAll, Reader.drain, hcount]
    rfl
  · rw [readAll, Reader.drain, hcount]
    rfl
  · obtain ⟨rfl, hexact⟩ := Number.eq_ofCount_of_count? hcount
    have hfirst : (x.close.reader.read (.ofCount 0) (.ofCount (c + 1))).outcome () =
        (.ok .ending, ()) := by
      rw [reader]
      dsimp only
      rw [read_closed (Reading.checkRange_ofCount (by decide) hexact), Process.outcome_ok]
    rw [readAll, Reader.drain, hcount]
    dsimp only
    rw [Reader.drainFrom, Effect.outcome_bind_ok hfirst]
    rfl

end Session

/-! ### Many sessions of a device that changes -/

/-- A device and the sessions that were opened on it, in the order in which they were opened. -/
structure Desk where
  device : Device
  sessions : List Session := []

/-- What can happen at a desk: the device changes in any way, a session is opened, one is
closed, or one is asked. -/
inductive Desk.Call where
  | change (f : Device → Device)
  | openSession (name : String)
  | close (i : Nat)
  | read (i : Nat) (offset length : Number)
  | readAll (i : Nat) (chunkSize : Number)
  | length (i : Nat)

inductive Desk.Answer where
  | done (result : Except Stop Unit)
  | chunk (result : Except Stop Chunk)
  | bytes (result : Except Stop Bytes)
  | length (n : Number)
  | unknown

namespace Desk

variable {m : Diagnostics δ}

/-- The answer of a session that a call names. -/
def ask (desk : Desk) (i : Nat) (answer : Session → Answer) : Answer :=
  match desk.sessions[i]? with
  | some x => answer x
  | none => .unknown

/-- One call: its answer, and the desk after it. -/
def perform (m : Diagnostics δ) (desk : Desk) : Call → Answer × Desk
  | .change f => (.done (.ok ()), { desk with device := f desk.device })
  | .openSession name =>
    match (m.openSession name).outcome desk.device with
    | (.ok x, d) => (.done (.ok ()), ⟨d, desk.sessions ++ [x]⟩)
    | (.error e, d) => (.done (.error e), { desk with device := d })
  | .close i => (.done (.ok ()), { desk with sessions := desk.sessions.modify i Session.close })
  | .read i offset length =>
    (desk.ask i fun x => .chunk ((x.read offset length).mapError .failed), desk)
  | .readAll i chunkSize => (desk.ask i fun x => .bytes (x.readAll chunkSize), desk)
  | .length i => (desk.ask i fun x => .length x.length, desk)

def run (m : Diagnostics δ) (desk : Desk) (calls : List Call) : Desk :=
  calls.foldl (fun desk c => (desk.perform m c).2) desk

/-- A call touches a session only to close it. -/
theorem perform_session {desk : Desk} {i : Nat} {x : Session} (held : desk.sessions[i]? = some x)
    (c : Call) :
    (c = .close i ∧ (desk.perform m c).2.sessions[i]? = some x.close) ∨
      (c ≠ .close i ∧ (desk.perform m c).2.sessions[i]? = some x) := by
  cases c with
  | close j =>
    have hsessions :
        (desk.perform m (.close j)).2.sessions = desk.sessions.modify j Session.close :=
      rfl
    rw [hsessions]
    by_cases hj : j = i
    · subst hj
      exact Or.inl ⟨rfl, by rw [List.getElem?_modify_eq, held]; rfl⟩
    · refine Or.inr ⟨fun h => hj (by cases h; rfl), ?_⟩
      simp [hj, held]
  | openSession name =>
    refine Or.inr ⟨nofun, ?_⟩
    obtain ⟨hi, -⟩ := List.getElem?_eq_some_iff.mp held
    rw [perform]
    rcases (m.openSession name).outcome desk.device with ⟨e | opened, d⟩
    · exact held
    · exact (List.getElem?_append_left hi).trans held
  | change f => exact Or.inr ⟨nofun, held⟩
  | read j offset length => exact Or.inr ⟨nofun, held⟩
  | readAll j chunkSize => exact Or.inr ⟨nofun, held⟩
  | length j => exact Or.inr ⟨nofun, held⟩

theorem run_cons (desk : Desk) (c : Call) (calls : List Call) :
    desk.run m (c :: calls) = (desk.perform m c).2.run m calls := rfl

/-- After any calls a session is the one that was opened, or that one closed. -/
theorem run_session {desk : Desk} {i : Nat} {x : Session} (held : desk.sessions[i]? = some x)
    (calls : List Call) :
    (.close i ∉ calls → (desk.run m calls).sessions[i]? = some x) ∧
      (.close i ∈ calls → (desk.run m calls).sessions[i]? = some x.close) := by
  induction calls generalizing desk x with
  | nil => exact ⟨fun _ => held, nofun⟩
  | cons c rest ih =>
    rw [run_cons]
    rcases perform_session (m := m) held c with ⟨rfl, hclosed⟩ | ⟨hother, hkept⟩
    · refine ⟨fun h => absurd List.mem_cons_self h, fun _ => ?_⟩
      -- closing a closed session changes nothing
      obtain ⟨hleft, hagain⟩ := ih hclosed
      by_cases hmem : .close i ∈ rest
      · exact hagain hmem
      · exact hleft hmem
    · obtain ⟨hleft, hclosed⟩ := ih hkept
      exact ⟨fun h => hleft fun hmem => h (List.mem_cons_of_mem c hmem),
        fun h => hclosed ((List.mem_cons.mp h).resolve_left hother.symm)⟩

/-- The session that a call opens is the last one of the desk. -/
theorem perform_openSession {desk : Desk} {name : String} {x : Session} {d : Device}
    (opened : (m.openSession name).outcome desk.device = (.ok x, d)) :
    (desk.perform m (.openSession name)).2.sessions[desk.sessions.length]? = some x := by
  rw [perform, opened]
  exact List.getElem?_concat_length

theorem ask_eq {desk : Desk} {i : Nat} {x : Session} (held : desk.sessions[i]? = some x)
    (answer : Session → Answer) : desk.ask i answer = answer x := by
  rw [ask, held]

end Desk

namespace Diagnostics

/-- A whole report, as it is read when every read finds the same device. -/
def readAllIn (m : Diagnostics δ) (d : Device) (name : String) (chunkSize : Number) :
    Except Stop Bytes := do
  let r ← (m.reader name).mapError .failed
  (((r.frozen d).drain chunkSize).outcome ()).1

theorem readAllIn_of_reader {m : Diagnostics δ} {name : String} {r : Reader Device}
    (found : m.reader name = .ok r) (d : Device) (chunkSize : Number) :
    m.readAllIn d name chunkSize = (((r.frozen d).drain chunkSize).outcome ()).1 := by
  rw [readAllIn, found]
  rfl

/-- Where reading leaves the device alone, every read finds the same device anyway. -/
theorem readAllIn_eq {m : Diagnostics δ} {d : Device} {name : String}
    (leaves : ∀ offset length, ((m.read name offset length).outcome d).2 = d) (chunkSize : Number) :
    m.readAllIn d name chunkSize = ((m.readAll name chunkSize).outcome d).1 := by
  rcases hreader : m.reader name with e | r
  · rw [readAllIn, readAll, hreader]
    rfl
  · have hread (offset length : Number) : ((r.read offset length).outcome d).2 = d := by
      have hleaves := leaves offset length
      rw [read, hreader] at hleaves
      exact hleaves
    rw [readAllIn_of_reader hreader, readAll, hreader,
      Effect.outcome_bind_ok (Process.outcome_ok r d), Reader.drain_frozen hread]

/-- An opened session holds what its report was rendered to. -/
theorem openSession_ok {m : Diagnostics δ} {name : String} {d after : Device} {x : Session}
    (opened : (m.openSession name).outcome d = (.ok x, after)) :
    ∃ r ∈ m.reports, ∃ out,
      m.reader name = .ok (Reading.reader m.settings.bounds (r.rendering m.settings)) ∧
      (Rendering.fresh m.settings.bounds (r.rendering m.settings)).outcome d = (.ok out, after) ∧
      x = Session.ofBuffer name out := by
  rcases report_cases m name with ⟨r, hr, -, hreport⟩ | ⟨-, hreport⟩ <;>
    rw [openSession, hreport] at opened
  · rw [Effect.outcome_bind_ok (Process.outcome_ok r d), rendering] at opened
    rcases hfresh : (Rendering.fresh m.settings.bounds (r.rendering m.settings)).outcome d with
      ⟨e | out, t⟩
    · rw [Effect.outcome_bind_error hfresh] at opened
      cases opened
    · rw [Effect.outcome_bind_ok hfresh, Effect.outcome_pure] at opened
      cases opened
      exact ⟨r, hr, out, by rw [reader, hreport]; rfl, hfresh, rfl⟩
  · rw [Effect.outcome_bind_error (Process.outcome_error _ d)] at opened
    cases opened

/-- A session answers, after any calls to it and to others and any changes to the device, what
reads would have answered in the state in which it was opened; closed, it has ended. -/
theorem session_keeps_opening_state (m : Diagnostics δ) (machine : String) (config : Value)
    (accepted : Settings.resolve machine config = .ok m.settings)
    (prints : ∀ r ∈ m.reports, r.Prints) (desk : Desk) (name : String) (x : Session)
    (after : Device)
    (opened : (m.openSession name).outcome desk.device = (.ok x, after)) (calls : List Desk.Call) :
    let i := desk.sessions.length
    let later := desk.run m (.openSession name :: calls)
    (.close i ∉ calls →
      (∀ offset length, (later.perform m (.read i offset length)).1 =
        .chunk ((m.read name offset length).outcome desk.device).1) ∧
      (∀ chunkSize, (later.perform m (.readAll i chunkSize)).1 =
        .bytes (m.readAllIn desk.device name chunkSize)) ∧
      ((∀ offset length, ((m.read name offset length).outcome desk.device).2 = desk.device) →
        ∀ chunkSize, (later.perform m (.readAll i chunkSize)).1 =
          .bytes ((m.readAll name chunkSize).outcome desk.device).1)) ∧
    (.close i ∈ calls →
      (∀ offset length, (later.perform m (.read i offset length)).1 =
        .chunk ((Reading.checkRange offset length).mapError .failed >>= fun _ => .ok .ending)) ∧
      (∀ chunkSize, (later.perform m (.readAll i chunkSize)).1 =
        .bytes (match chunkSize.count? with
          | some (_ + 1) => .ok []
          | _ => .error (.failed (.readRange (some 0) (some chunkSize))))) ∧
      (later.perform m (.length i)).1 = .length 0) := by
  intro i later
  obtain ⟨r, hr, out, hreader, hfresh, rfl⟩ := openSession_ok opened
  obtain ⟨limit, capacity, hbounds, -⟩ := Settings.bounds_of_resolve accepted
  rw [hbounds] at hreader hfresh
  have hprints := (prints r hr).rendering m.settings
  obtain ⟨hkept, hclosed⟩ := Desk.run_session (Desk.perform_openSession opened) calls
  refine ⟨fun hopen => ?_, fun hclose => ?_⟩
  · have hsession := hkept hopen
    have hreadAll (chunkSize : Number) : (later.perform m (.readAll i chunkSize)).1 =
        .bytes (m.readAllIn desk.device name chunkSize) := by
      rw [readAllIn_of_reader hreader, ← Session.readAll_ofBuffer hprints hfresh]
      exact Desk.ask_eq hsession _
    refine ⟨fun offset length => ?_, hreadAll, fun leaves chunkSize => ?_⟩
    · have hlimit : out.limit = (Bounds.ofCounts limit capacity).sizeLimit := by
        obtain ⟨ts, rfl⟩ := Rendering.fresh_prints hprints hfresh
        exact ((Bounds.sound_buffer limit capacity).bounds_printAll ts).1
      rw [read, hreader, Effect.outcome_bind_ok (Process.outcome_ok _ desk.device)]
      exact (Desk.ask_eq hsession _).trans
        (congrArg Desk.Answer.chunk (Session.read_ofBuffer hfresh hlimit offset length))
    · rw [hreadAll, readAllIn_eq leaves]
  · have hsession := hclosed hclose
    refine ⟨fun offset length => ?_, fun chunkSize => ?_, Desk.ask_eq hsession _⟩
    · refine (Desk.ask_eq hsession _).trans (congrArg Desk.Answer.chunk ?_)
      rcases hcheck : Reading.checkRange offset length with e | u
      · exact congrArg (Except.mapError Stop.failed) (Session.read_refused hcheck _)
      · exact congrArg (Except.mapError Stop.failed) (Session.read_closed hcheck _)
    · exact (Desk.ask_eq hsession _).trans
        (congrArg Desk.Answer.bytes (Session.readAll_closed _ chunkSize))

/-- The first of two sessions still shows the driver that the device had, although the device
has another one by then and the other session is closed. -/
theorem session_after_change :
    Settings.resolve "x64" .missing = .ok complete.settings ∧
      (∀ r ∈ complete.reports, r.Prints) ∧
      (∃ x after, (complete.openSession "name").outcome Sample.bare = (.ok x, after)) ∧
      let later := (⟨Sample.bare, []⟩ : Desk).run complete
        [.openSession "name", .change fun d => { d with driverName := .string "vga" },
          .openSession "name", .close 1]
      (later.perform complete (.read 0 (.ofCount 0) (.ofCount 3))).1 =
        .chunk (.ok ⟨[103, 102, 120], false⟩) := by
  have hprints : ∀ r ∈ complete.reports, r.Prints := fun _ hr => Report.builtin_prints hr
  have hread : ((complete.read "name" (.ofCount 0) (.ofCount 3)).outcome Sample.bare).1 =
      .ok ⟨[103, 102, 120], false⟩ := by
    have hchunk :
        ((complete.read "name" (.ofCount 0) (.ofCount 3)).outcome Sample.bare).1.toOption =
        some ⟨[103, 102, 120], false⟩ := by decide +kernel
    exact eq_ok_of_toOption hchunk
  obtain ⟨x, after, hopened⟩ :
      ∃ x after, (complete.openSession "name").outcome Sample.bare = (.ok x, after) := by
    have hopens : ((complete.openSession "name").outcome Sample.bare).1.toOption.isSome = true := by
      decide +kernel
    obtain ⟨x, hx⟩ := Option.isSome_iff_exists.mp hopens
    exact ⟨x, _, Prod.ext (eq_ok_of_toOption hx) rfl⟩
  refine ⟨Settings.resolve_missing, hprints, ⟨x, after, hopened⟩, ?_⟩
  have hsession :=
    (session_keeps_opening_state complete "x64" .missing Settings.resolve_missing hprints
      ⟨Sample.bare, []⟩ "name" x after hopened
      [.change fun d => { d with driverName := .string "vga" }, .openSession "name", .close 1]).1
      (by simp)
  rw [← hread]
  exact hsession.1 _ _

end Diagnostics

/-! ### Scripted reports -/

theorem ScriptStep.run_prints (s : Settings)
    (readReport : String → Number → Number → Process Device Chunk) (step : ScriptStep) :
    Rendering.Prints (step.run s readReport) := by
  cases step with
  | print text => exact Rendering.prints_piece _
  | fail message => exact Rendering.prints_fail _
  | showLock => exact Rendering.prints_state.bind fun _ => Rendering.prints_piece _
  | showBuffer => exact Rendering.prints_output.bind fun _ => Rendering.prints_piece _
  | showBounds => exact Rendering.prints_piece _
  | read name offset length =>
    exact (Rendering.prints_onState _).bind fun _ => Rendering.prints_piece _

/-- A scripted report prints only, whatever its steps are and whatever else it reads. -/
theorem Script.prints (readReport : String → Number → Number → Process Device Chunk) (x : Script) :
    (x.toReport readReport).Prints := by
  intro s
  change Rendering.Prints (ScriptStep.runAll s readReport x.steps)
  induction x.steps with
  | nil => exact Rendering.prints_pure _
  | cons step rest ih => exact (step.run_prints s readReport).bind fun _ => ih

end DeviceReports
