import DeviceReports.Device.Sample
import DeviceReports.Proofs.LoadedReports
import DeviceReports.Proofs.WholeFigures

/-!
# When a read fails

A read of a loaded device fails for one of three reasons, and each goes before the next: there
is no report of that name, the range is none, or the report wants the lock and another holds
it. Nothing else can fail: whatever a snapshot and the settings let through can be formatted
and fits a buffer, and the memory controller answers.
-/

set_option autoImplicit false

namespace DeviceReports

variable {σ δ : Type}

/-- A range of a report: two counts below 2^53. -/
def Reading.Range (offset length : Number) : Prop :=
  ∃ o l, o < Number.exactBound ∧ l < Number.exactBound ∧ offset = .ofCount o ∧ length = .ofCount l

theorem Reading.checkRange_cases (offset length : Number) :
    (Range offset length ∧ checkRange offset length = .ok ()) ∨
      (¬ Range offset length ∧
        checkRange offset length = .error (.readRange (some offset) (some length))) := by
  rw [checkRange]
  rcases ho : offset.count? with _ | o
  · refine Or.inr ⟨?_, rfl⟩
    rintro ⟨o, l, hexact, -, rfl, -⟩
    cases (Number.count?_ofCount hexact).symm.trans ho
  · rcases hl : length.count? with _ | l
    · refine Or.inr ⟨?_, rfl⟩
      rintro ⟨o, l, -, hexact, -, rfl⟩
      cases (Number.count?_ofCount hexact).symm.trans hl
    · obtain ⟨rfl, hoffset⟩ := Number.eq_ofCount_of_count? ho
      obtain ⟨rfl, hlength⟩ := Number.eq_ofCount_of_count? hl
      exact Or.inl ⟨⟨o, l, hoffset, hlength, rfl, rfl⟩, rfl⟩

/-- A window has no more bytes than were asked for. -/
theorem Chunk.length_ofContent_le (content : List UInt8) (offset length : Nat) :
    (ofContent content offset length).bytes.length ≤ length := by
  rw [ofContent, List.extract_eq_take_drop, List.length_take]
  omega

namespace Report

theorem builtin_subset (debug : Bool) : ∀ r ∈ builtin debug, r ∈ builtin true := by
  intro r hr
  cases debug with
  | true => exact hr
  | false => exact List.mem_append_left _ hr

/-- A read within a report's bounds on a device that can be shown: it waits for a held lock in vain,
or answers no more than it is asked for. -/
theorem read_cases {r : Report} (h : r ∈ builtin true) (s : Settings) (sizeLimit capacity : Nat)
    {d : Device} (shown : d.CanBeShown) {threshold : Rat}
    (finite : d.lock.patience.panicThreshold = .finite threshold) {offset length : Nat}
    (ho : offset < Number.exactBound) (hl : length < Number.exactBound) :
    let answer := ((Reading.read (Bounds.ofCounts sizeLimit capacity) (r.rendering s)
      (.ofCount offset) (.ofCount length)).outcome d).1
    ((d.lockWord ≠ Lock.free ∧ r.requiresLock = true ∧ offset ≤ sizeLimit) ∧
        answer = .error (Lock.inVain threshold)) ∨
      (¬ (d.lockWord ≠ Lock.free ∧ r.requiresLock = true ∧ offset ≤ sizeLimit) ∧
        ∃ chunk, answer = .ok chunk ∧ chunk.bytes.length ≤ length) := by
  dsimp only
  by_cases hpast : sizeLimit < offset
  · have hread : (Reading.read (Bounds.ofCounts sizeLimit capacity) (r.rendering s)
        (.ofCount offset) (.ofCount length)).outcome d = (.ok .ending, d) :=
      Reading.read_past (r.rendering s) ho hl hpast d
    exact Or.inr ⟨by omega, .ending, congrArg Prod.fst hread, Nat.zero_le _⟩
  · by_cases hadmitted : r.requiresLock = true → d.lockWord = Lock.free
    · obtain ⟨e, ts, hrender, -, hready⟩ :=
        rendering_generates h s shown.steady hadmitted (Bounds.sound_buffer sizeLimit capacity)
      rw [hready shown.formattable shown.answering] at hrender
      have hread := Reading.read_rendered ho hl (Nat.le_of_not_lt hpast) hrender
      exact Or.inr ⟨fun ⟨hheld, hlock, _⟩ => hheld (hadmitted hlock), _, congrArg Prod.fst hread,
        Chunk.length_ofContent_le _ _ _⟩
    · obtain ⟨hlock, hheld⟩ := Classical.not_imp.mp hadmitted
      have hread := Reading.read_failed ho hl (Nat.le_of_not_lt hpast)
        (rendering_held hlock s hheld finite (Bounds.buffer sizeLimit capacity))
      exact Or.inl ⟨⟨hheld, hlock, Nat.le_of_not_lt hpast⟩, congrArg Prod.fst hread⟩

end Report

namespace Diagnostics

variable {m : Diagnostics δ}

theorem create_ok {machine : String} {d : Device} {config : Value}
    {replaced : Option (List Report)} (created : create machine d config replaced = .ok m) :
    Settings.resolve machine config = .ok m.settings ∧
      m.reports = replaced.getD (Report.builtin m.settings.debug) := by
  rw [create] at created
  rcases hsettings : Settings.resolve machine config with e | settings <;> rw [hsettings] at created
  · cases created
  · dsimp only [bind, Except.bind] at created
    split at created <;> cases created
    exact ⟨rfl, rfl⟩

/-- Two reports of one name are the same report. -/
theorem report_unique {r r' : Report} (h : r ∈ m.reports) (h' : r' ∈ m.reports)
    (same : r.name = r'.name) : r = r' :=
  List.inj_on_of_nodup_map m.names_nodup h h' same

/-- Whether a read would have to wait: the lock is held, the report of that name wants it, and
the offset does not lie past the size limit, where nothing is rendered. -/
def Waits (m : Diagnostics δ) (d : Device) (name : String) (offset : Number) : Prop :=
  d.lockWord ≠ Lock.free ∧ (∃ r ∈ m.reports, r.name = name ∧ r.requiresLock = true) ∧
    ¬ m.settings.sizeLimit < offset

/-- How one read of a device ends, with the condition under which it ends so. -/
inductive ReadEnds (m : Diagnostics δ) (d : Device) (threshold : Rat) (name : String)
    (offset length : Number) : Except Stop Chunk → Prop where
  | unknown (absent : name ∉ m.names) :
    ReadEnds m d threshold name offset length (.error (.failed (.reportNotFound name m.label)))
  | refused (present : name ∈ m.names) (bad : ¬ Reading.Range offset length) :
    ReadEnds m d threshold name offset length
      (.error (.failed (.readRange (some offset) (some length))))
  | inVain (present : name ∈ m.names) (good : Reading.Range offset length)
      (waits : m.Waits d name offset) :
    ReadEnds m d threshold name offset length (.error (Lock.inVain threshold))
  | answered (present : name ∈ m.names) (good : Reading.Range offset length)
      (goes : ¬ m.Waits d name offset) (chunk : Chunk) (l : Nat) (asked : length = .ofCount l)
      (bounded : chunk.bytes.length ≤ l) :
    ReadEnds m d threshold name offset length (.ok chunk)

/-- A read of a device that can be shown ends in one of these ways. -/
theorem read_ends {limit capacity : Nat}
    (bounds : m.settings.bounds = Bounds.ofCounts limit capacity)
    (builtin : ∀ r ∈ m.reports, r ∈ Report.builtin true) {d : Device}
    (shown : d.CanBeShown) {threshold : Rat}
    (finite : d.lock.patience.panicThreshold = .finite threshold) (name : String)
    (offset length : Number) :
    m.ReadEnds d threshold name offset length
      ((m.read name offset length).outcome d).1 := by
  rcases reader_cases m name with ⟨r, hr, hname, hreader⟩ | ⟨hnot, hreader⟩
  · have hpresent : name ∈ m.names := List.mem_map.mpr ⟨r, hr, hname⟩
    rw [read, hreader, Effect.outcome_bind_ok (Process.outcome_ok _ d), bounds]
    rcases Reading.checkRange_cases offset length with ⟨hrange, -⟩ | ⟨hrange, hcheck⟩
    · obtain ⟨o, l, ho, hl, rfl, rfl⟩ := id hrange
      have hwaits : m.Waits d name (.ofCount o) ↔
          d.lockWord ≠ Lock.free ∧ r.requiresLock = true ∧ o ≤ limit := by
        have hlimit : m.settings.sizeLimit = .ofCount limit := congrArg Bounds.sizeLimit bounds
        rw [Waits, hlimit, Number.ofCount_lt_ofCount, Nat.not_lt]
        refine and_congr_right fun _ => and_congr_left fun _ => ⟨?_, fun h => ⟨r, hr, hname, h⟩⟩
        rintro ⟨r', hr', hname', hlock⟩
        exact report_unique hr' hr (hname'.trans hname.symm) ▸ hlock
      have hread :=
        Report.read_cases (builtin r hr) m.settings limit capacity shown finite ho hl
      rw [← hwaits] at hread
      rcases hread with ⟨hwait, hanswer⟩ | ⟨hgoes, chunk, hanswer, hlength⟩
      · exact hanswer ▸ .inVain hpresent hrange hwait
      · exact hanswer ▸ .answered hpresent hrange hgoes chunk l rfl hlength
    · have hrefused :
          ((Reading.read (Bounds.ofCounts limit capacity) (r.rendering m.settings) offset
            length).outcome d).1 = .error (.failed (.readRange (some offset) (some length))) := by
        rw [Reading.read, hcheck, Effect.outcome_bind_error (Process.outcome_error _ d)]
      exact hrefused ▸ .refused hpresent hrange
  · rw [read, hreader, Effect.outcome_bind_error (Process.outcome_error _ d)]
    exact .unknown hnot

/-- A read of a loaded device raises one of three errors, each exactly under its condition and
in this order, and otherwise answers at most as many bytes as it is asked for. Only under a
threshold above 2^53, which no device has that was loaded, it waits on instead of raising the
last. -/
theorem read_raises_iff (document : Value) (source : String) (loaded : Device)
    (load : Snapshot.load document source = .ok loaded) (machine : String) (config : Value)
    (m : Diagnostics δ) (created : create machine loaded config = .ok m) (lock : StateLock)
    (threshold : Rat)
    (finite : lock.patience.panicThreshold = .finite threshold)
    (name : String) (offset length : Number) :
    let d := { loaded with lock }
    let answer := ((m.read name offset length).outcome d).1
    (answer = .error (.failed (.reportNotFound name m.label)) ↔ name ∉ m.names) ∧
      (answer = .error (.failed (.readRange (some offset) (some length))) ↔
        name ∈ m.names ∧ ¬ Reading.Range offset length) ∧
      (threshold ≤ Number.exactBound →
        (answer = .error (.failed (.deadlock (some (.ofCount (Lock.triesUnder threshold))))) ↔
          name ∈ m.names ∧ Reading.Range offset length ∧ m.Waits d name offset)) ∧
      (¬ threshold ≤ Number.exactBound → (answer = .error .endless ↔
        name ∈ m.names ∧ Reading.Range offset length ∧ m.Waits d name offset)) ∧
      ((∃ chunk, answer = .ok chunk) ↔
        name ∈ m.names ∧ Reading.Range offset length ∧ ¬ m.Waits d name offset) ∧
      ∀ chunk, answer = .ok chunk → ∃ l, length = .ofCount l ∧ chunk.bytes.length ≤ l := by
  intro d answer
  obtain ⟨accepted, hreports⟩ := create_ok created
  obtain ⟨limit, capacity, hbounds, -⟩ := Settings.bounds_of_resolve accepted
  have hbuiltin : ∀ r ∈ m.reports, r ∈ Report.builtin true := by
    rw [hreports]
    exact Report.builtin_subset _
  have hquiet := Snapshot.quiet_of_load load
  have hformat : d.Formattable := by
    obtain ⟨tokens, mappings, queues, areas, highMemory⟩ := hquiet.formattable
    exact ⟨tokens, mappings, queues, areas, highMemory⟩
  have hends : m.ReadEnds d threshold name offset length answer :=
    read_ends hbounds hbuiltin ⟨hformat, hquiet.constant⟩ finite name offset length
  generalize answer = a at hends
  cases hends with
  | unknown absent => simp [absent]
  | refused present bad => simp [present, bad]
  | inVain present good waits =>
    by_cases hreached : threshold ≤ Number.exactBound
    · rw [Lock.inVain_of_le hreached]
      simp [present, good, waits, hreached]
    · rw [Lock.inVain, if_neg hreached]
      simp [present, good, waits, hreached]
  | answered present good goes chunk l asked bounded =>
    refine ⟨by simp [present], by simp [good], by simp [goes], by simp [goes],
      by simp [present, good, goes], ?_⟩
    intro other hother
    cases hother
    exact ⟨l, asked, bounded⟩

/-- A bare device whose lock is held: the queues are waited for in vain. -/
theorem read_held_lock :
    ∃ (loaded : Device) (m : Diagnostics String),
      Snapshot.load (.record Sample.identity) = .ok loaded ∧ create "x64" loaded .missing = .ok m ∧
        ((m.read "queues" (.ofCount 0) (.ofCount 16)).outcome
          { loaded with lock := ⟨Lock.held, ⟨.nan, .finite 3⟩⟩ }).1 =
            .error (.failed (.deadlock (some (.ofCount 3)))) := by
  obtain ⟨loaded, hload⟩ : ∃ d, Snapshot.load (.record Sample.identity) = .ok d := ⟨_, rfl⟩
  obtain ⟨m, hcreated⟩ : ∃ m : Diagnostics String, create "x64" loaded .missing = .ok m := by
    rw [create, Settings.resolve_missing]
    exact ⟨_, rfl⟩
  refine ⟨loaded, m, hload, hcreated, ?_⟩
  obtain ⟨hresolve, hreports⟩ := create_ok hcreated
  have hsettings : m.settings = Settings.defaults :=
    Except.ok.inj (hresolve.symm.trans Settings.resolve_missing)
  have hmem : Report.Queues.report ∈ m.reports := by
    rw [hreports, hsettings]
    simp [Settings.defaults, Report.builtin, Report.core]
  have hraises := read_raises_iff _ _ loaded hload "x64" .missing m hcreated
    ⟨Lock.held, ⟨.nan, .finite 3⟩⟩ 3 rfl "queues" (.ofCount 0) (.ofCount 16)
  have hrange : Reading.Range (.ofCount 0) (.ofCount 16) :=
    ⟨0, 16, by decide, by decide, rfl, rfl⟩
  have hheld : Lock.held ≠ Lock.free := by decide
  refine (hraises.2.2.1 (by decide +kernel)).mpr ⟨List.mem_map_of_mem hmem, hrange, hheld,
    ⟨_, hmem, rfl, rfl⟩, ?_⟩
  rw [hsettings]
  decide +kernel

end Diagnostics

end DeviceReports
