import DeviceReports.Diagnostics
import DeviceReports.Proofs.Outcomes

/-!
# Mounting registers every report or none

What a host does at each call is left open here: it keeps a state of its own, may refuse or
fail at any creation, and may fail at any removal. The record of calls is exact. What a
failing host leaves behind is its own affair and nothing is said about it.
-/

set_option autoImplicit false

namespace DeviceReports

variable {σ δ ρ α : Type}

namespace Host

/-- Runs a call and takes it down, whatever becomes of it. -/
def recording (call : Call δ) (act : Action σ α) : Action (σ × List (Call δ)) α :=
  Effect.ofOutcome fun (s, calls) => ((act.outcome s).1, ((act.outcome s).2, calls ++ [call]))

/-- The host that takes down every call it receives. -/
def recorded (h : Host σ δ ρ) : Host (σ × List (Call δ)) δ ρ where
  createDirectory name parent :=
    recording (.createDirectory name parent) (h.createDirectory name parent)
  createEntry name directory content :=
    recording (.createEntry name directory) (h.createEntry name directory content)
  removeEntry name directory :=
    recording (.removeEntry name directory) (h.removeEntry name directory)
  removeDirectory name parent :=
    recording (.removeDirectory name parent) (h.removeDirectory name parent)
  pathOf := h.pathOf
  note line := fun (s, calls) => (h.note line s, calls)

theorem outcome_recording {call : Call δ} {act : Action σ α} {s t : σ} {r : Except Failure α}
    (run : act.outcome s = (r, t)) (calls : List (Call δ)) :
    (recording call act).outcome (s, calls) = (r, (t, calls ++ [call])) := by
  rw [recording, Effect.outcome_ofOutcome]
  simp only [run]

/-- Entries that are created one after the other, from one state of the host to another. -/
inductive Creates (h : Host σ δ ρ) (entry : String → ρ) (directory : δ) :
    σ → List String → σ → Prop
  | none (s : σ) : Creates h entry directory s [] s
  | next {s t u : σ} {name : String} {rest : List String}
      (created : (h.createEntry name directory (entry name)).outcome s = (.ok true, t))
      (others : Creates h entry directory t rest u) : Creates h entry directory s (name :: rest) u

/-- A call that is answered with a refusal, or that fails for a cause. -/
def Declines (act : Action σ α) (refusal : α) (s : σ) (cause : Option Cause) (t : σ) : Prop :=
  (act.outcome s = (.ok refusal, t) ∧ cause = none) ∨
    ∃ e, act.outcome s = (.error e, t) ∧ cause = some e.toCause

/-- Either all entries are created, or some first one is not. -/
theorem creates_or_declines (h : Host σ δ ρ) (entry : String → ρ) (directory : δ)
    (names : List String) (s : σ) :
    (∃ u, Creates h entry directory s names u) ∨
      ∃ before name after u cause v, names = before ++ name :: after ∧
        Creates h entry directory s before u ∧
        Declines (h.createEntry name directory (entry name)) false u cause v := by
  induction names generalizing s with
  | nil => exact Or.inl ⟨s, .none s⟩
  | cons name rest ih =>
    rcases hcall : (h.createEntry name directory (entry name)).outcome s with ⟨e | created, t⟩
    · exact Or.inr ⟨[], name, rest, s, some e.toCause, t, rfl, .none s, Or.inr ⟨e, hcall, rfl⟩⟩
    · cases created with
      | false => exact Or.inr ⟨[], name, rest, s, none, t, rfl, .none s, Or.inl ⟨hcall, rfl⟩⟩
      | true =>
        rcases ih t with ⟨u, hall⟩ | ⟨before, failed, after, u, cause, v, hsplit, hsome, hdeclined⟩
        · exact Or.inl ⟨u, .next hcall hall⟩
        · exact Or.inr ⟨name :: before, failed, after, u, cause, v, by rw [hsplit]; rfl,
            .next hcall hsome, hdeclined⟩

theorem Creates.recorded {h : Host σ δ ρ} {entry : String → ρ} {directory : δ} {s u : σ}
    {names : List String} (created : Creates h entry directory s names u)
    (calls : List (Call δ)) :
    Creates h.recorded entry directory (s, calls) names
      (u, calls ++ names.map (.createEntry · directory)) := by
  induction created generalizing calls with
  | none s =>
    rw [List.map_nil, List.append_nil]
    exact .none _
  | @next s t u name rest hcall _ ih =>
    have hrest := ih (calls ++ [.createEntry name directory])
    rw [List.append_assoc, List.singleton_append] at hrest
    exact .next (outcome_recording hcall calls) hrest

theorem Declines.recording {act : Action σ α} {refusal : α} {s t : σ} {cause : Option Cause}
    (declined : Declines act refusal s cause t) (call : Call δ) (calls : List (Call δ)) :
    Declines (recording call act) refusal (s, calls) cause (t, calls ++ [call]) := by
  rcases declined with ⟨hcall, hcause⟩ | ⟨e, hcall, hcause⟩
  · exact Or.inl ⟨outcome_recording hcall calls, hcause⟩
  · exact Or.inr ⟨e, outcome_recording hcall calls, hcause⟩

end Host

namespace Diagnostics

open Host

variable {h : Host σ δ ρ} {entry : String → ρ} {p : MountPoint δ} {s t u v : σ}
  {names before after : List String} {name : String} {cause : Option Cause}

theorem createEntries_of_creates (created : Creates h entry p.directory s names u)
    (made : List String) : (createEntries h entry p made names).outcome s = (.ok (), u) := by
  induction created generalizing made with
  | none s => rfl
  | next hcall _ ih =>
    rw [createEntries, Effect.outcome_bind_ok (Action.outcome_attempt _ _), hcall]
    exact ih _

theorem createEntries_of_declines (created : Creates h entry p.directory s before u)
    (declined : Declines (h.createEntry name p.directory (entry name)) false u cause v)
    (made after : List String) :
    (createEntries h entry p made (before ++ name :: after)).outcome s =
      (abandon h p name (before.reverse ++ made) cause).outcome v := by
  induction created generalizing made with
  | none s =>
    rw [List.nil_append, createEntries, Effect.outcome_bind_ok (Action.outcome_attempt _ _)]
    rcases declined with ⟨hcall, rfl⟩ | ⟨e, hcall, rfl⟩ <;> rw [hcall] <;> rfl
  | @next s t u first rest hcall _ ih =>
    rw [List.cons_append, createEntries, Effect.outcome_bind_ok (Action.outcome_attempt _ _),
      hcall, List.reverse_cons, List.append_assoc]
    exact ih declined (first :: made)

variable {m : Diagnostics δ} {parent directory : δ}

theorem mount_of_declines (entry : String → ρ)
    (declined : Declines (h.createDirectory m.directoryName parent) none s cause t) :
    ∃ line, (m.mount h entry parent).outcome s =
      (.error (.namespaceCreation (h.pathOf parent ++ "/" ++ m.directoryName) cause),
        h.note line t) := by
  rw [mount, Effect.outcome_bind_ok (Action.outcome_attempt _ _)]
  rcases declined with ⟨hcall, rfl⟩ | ⟨e, hcall, rfl⟩ <;> rw [hcall] <;> exact ⟨_, rfl⟩

theorem mount_of_created (entry : String → ρ)
    (created : (h.createDirectory m.directoryName parent).outcome s = (.ok (some directory), t)) :
    (m.mount h entry parent).outcome s =
      (do
        createEntries h entry ⟨directory, m.directoryName, parent,
          h.pathOf parent ++ "/" ++ m.directoryName⟩ [] m.names
        pure directory : Action σ δ).outcome t := by
  rw [mount, Effect.outcome_bind_ok (Action.outcome_attempt _ _), created]

theorem mount_of_creates
    (created : (h.createDirectory m.directoryName parent).outcome s = (.ok (some directory), t))
    (entries : Creates h entry directory t m.names u) :
    (m.mount h entry parent).outcome s = (.ok directory, u) := by
  rw [mount_of_created entry created, Effect.outcome_bind_ok (createEntries_of_creates entries [])]
  rfl

/-! ### What becomes of the diagnostics -/

theorem outcome_onHost {act : Action σ α} {r : Except Failure α} (run : act.outcome s = (r, t))
    (m : Diagnostics δ) : (onHost act).outcome (m, s) = (r, (m, t)) := by
  rw [onHost, Effect.outcome_focus, run]

theorem init_mounted (mounted : m.directory = some directory) (h : Host σ δ ρ)
    (entry : String → ρ) (parent : δ) (s : σ) :
    (init h entry parent).outcome (m, s) = (.ok directory, (m, s)) := by
  rw [init, Effect.outcome_bind_ok (Effect.outcome_get _)]
  dsimp only
  rw [mounted, Effect.outcome_pure]

/-- Diagnostics whose mount returns are registered with its directory. -/
theorem init_of_mount (unmounted : m.directory = none)
    (run : (m.mount h entry parent).outcome s = (.ok directory, t)) :
    (init h entry parent).outcome (m, s) =
      (.ok directory, ({ m with directory := some directory }, t)) := by
  rw [init, Effect.outcome_bind_ok (Effect.outcome_get _)]
  dsimp only
  rw [unmounted, Effect.outcome_bind_ok (outcome_onHost run m)]
  rfl

/-- Diagnostics whose mount fails stay as they were. -/
theorem init_of_mount_fails (unmounted : m.directory = none) {e : Failure}
    (run : (m.mount h entry parent).outcome s = (.error e, t)) :
    (init h entry parent).outcome (m, s) = (.error e, (m, t)) := by
  rw [init, Effect.outcome_bind_ok (Effect.outcome_get _)]
  dsimp only
  rw [unmounted, Effect.outcome_bind_error (outcome_onHost run m)]

theorem teardown_unmounted (unmounted : m.directory = none) (h : Host σ δ ρ) (parent : δ) (s : σ) :
    (teardown h parent).outcome (m, s) = (.ok (), (m, s)) := by
  rw [teardown, Effect.outcome_bind_ok (Effect.outcome_get _)]
  dsimp only
  rw [unmounted, Effect.outcome_pure]

theorem teardown_mounted (mounted : m.directory = some directory) (h : Host σ δ ρ) (parent : δ)
    (s : σ) :
    (teardown h parent).outcome (m, s) =
      (do
        onHost (dismount h directory m.names)
        onHost (h.removeDirectory m.directoryName parent)
        settle none : Action (Diagnostics δ × σ) Unit).outcome (m, s) := by
  rw [teardown, Effect.outcome_bind_ok (Effect.outcome_get _)]
  dsimp only
  rw [mounted]

/-- Diagnostics all of whose removals return are not registered any more. -/
theorem teardown_of_removals (mounted : m.directory = some directory)
    (entries : (dismount h directory m.names).outcome s = (.ok (), t))
    (last : (h.removeDirectory m.directoryName parent).outcome t = (.ok (), u)) :
    (teardown h parent).outcome (m, s) = (.ok (), ({ m with directory := none }, u)) := by
  rw [teardown_mounted mounted, Effect.outcome_bind_ok (outcome_onHost entries m),
    Effect.outcome_bind_ok (outcome_onHost last m)]
  rfl

/-- Diagnostics one of whose entries is not removed stay as they were. -/
theorem teardown_of_entry_fails (mounted : m.directory = some directory) {e : Failure}
    (entries : (dismount h directory m.names).outcome s = (.error e, t)) (parent : δ) :
    (teardown h parent).outcome (m, s) = (.error e, (m, t)) := by
  rw [teardown_mounted mounted, Effect.outcome_bind_error (outcome_onHost entries m)]

theorem teardown_of_directory_fails (mounted : m.directory = some directory) {e : Failure}
    (entries : (dismount h directory m.names).outcome s = (.ok (), t))
    (last : (h.removeDirectory m.directoryName parent).outcome t = (.error e, u)) :
    (teardown h parent).outcome (m, s) = (.error e, (m, u)) := by
  rw [teardown_mounted mounted, Effect.outcome_bind_ok (outcome_onHost entries m),
    Effect.outcome_bind_error (outcome_onHost last m)]

/-! ### Recorded mounts -/

/-- A removal of a rollback is attempted once and its failure goes no further. -/
theorem removeOrNote_recorded (h : Host σ δ ρ) (path : String) (call : Call δ)
    (removal : Action σ Unit) (s : σ) (calls : List (Call δ)) :
    ∃ t, (removeOrNote h.recorded path (recording call removal)).outcome (s, calls) =
      (.ok (), (t, calls ++ [call])) := by
  rcases hcall : removal.outcome s with ⟨e | done, t⟩ <;>
    rw [removeOrNote, Effect.outcome_bind_ok (Action.outcome_attempt _ _),
      outcome_recording hcall calls]
  · exact ⟨_, rfl⟩
  · exact ⟨t, rfl⟩

theorem removeEntries_recorded (h : Host σ δ ρ) (p : MountPoint δ) (names : List String) (s : σ)
    (calls : List (Call δ)) :
    ∃ t, (removeEntries h.recorded p names).outcome (s, calls) =
      (.ok (), (t, calls ++ names.map (.removeEntry · p.directory))) := by
  induction names generalizing s calls with
  | nil => exact ⟨s, by rw [List.map_nil, List.append_nil]; rfl⟩
  | cons name rest ih =>
    obtain ⟨t, hfirst⟩ := removeOrNote_recorded h (p.path ++ "/" ++ name)
      (.removeEntry name p.directory) (h.removeEntry name p.directory) s calls
    obtain ⟨u, hrest⟩ := ih t (calls ++ [.removeEntry name p.directory])
    rw [List.append_assoc, List.singleton_append] at hrest
    exact ⟨u, (Effect.outcome_bind_ok hfirst _).trans hrest⟩

/-- Giving up a mount attempts every removal, and then reports what was removed. -/
theorem abandon_recorded (h : Host σ δ ρ) (p : MountPoint δ) (name : String) (made : List String)
    (cause : Option Cause) (s : σ) (calls : List (Call δ)) :
    ∃ t, (abandon h.recorded p name made cause).outcome (s, calls) =
      (.error (.registration p.path name made cause),
        (t, calls ++ made.map (.removeEntry · p.directory) ++
          [.removeDirectory p.name p.parent])) := by
  obtain ⟨t, hentries⟩ := removeEntries_recorded h p made s calls
  obtain ⟨u, hdirectory⟩ := removeOrNote_recorded h p.path (.removeDirectory p.name p.parent)
    (h.removeDirectory p.name p.parent) t (calls ++ made.map (.removeEntry · p.directory))
  exact ⟨_, by
    rw [abandon, Effect.outcome_bind_ok hentries]
    exact Effect.outcome_bind_ok hdirectory _⟩

/-- The run of a mount: what it answers, the diagnostics afterwards, and the calls made. -/
structure MountRun (δ : Type) where
  result : Except Failure δ
  diagnostics : Diagnostics δ
  calls : List (Call δ)

/-- Mounts diagnostics on a host that is in some state. -/
def mountRun (h : Host σ δ ρ) (entry : String → ρ) (m : Diagnostics δ) (parent : δ) (s : σ) :
    MountRun δ :=
  let (result, (diagnostics, (_, calls))) :=
    (init h.recorded entry parent).outcome (m, (s, []))
  ⟨result, diagnostics, calls⟩

/-- The directory is not created, and nothing else is asked of the host. -/
def DirectoryDeclined (h : Host σ δ ρ) (m : Diagnostics δ) (parent : δ) (s : σ)
    (run : MountRun δ) : Prop :=
  ∃ cause t, Declines (h.createDirectory m.directoryName parent) none s cause t ∧
    run = ⟨.error (.namespaceCreation (h.pathOf parent ++ "/" ++ m.directoryName) cause), m,
      [.createDirectory m.directoryName parent]⟩

/-- Every entry is created, in the order of the reports, and nothing is removed. -/
def EveryEntryCreated (h : Host σ δ ρ) (entry : String → ρ) (m : Diagnostics δ) (parent : δ)
    (s : σ) (run : MountRun δ) : Prop :=
  ∃ directory t u,
    (h.createDirectory m.directoryName parent).outcome s = (.ok (some directory), t) ∧
    Creates h entry directory t m.names u ∧
    run = ⟨.ok directory, { m with directory := some directory },
      .createDirectory m.directoryName parent :: m.names.map (.createEntry · directory)⟩

/-- A first entry is not created: those before it are removed again, latest first, and then the
directory. -/
def EntryDeclined (h : Host σ δ ρ) (entry : String → ρ) (m : Diagnostics δ) (parent : δ) (s : σ)
    (run : MountRun δ) : Prop :=
  ∃ directory t before name after u cause v,
    (h.createDirectory m.directoryName parent).outcome s = (.ok (some directory), t) ∧
    m.names = before ++ name :: after ∧
    Creates h entry directory t before u ∧
    Declines (h.createEntry name directory (entry name)) false u cause v ∧
    run = ⟨.error (.registration (h.pathOf parent ++ "/" ++ m.directoryName) name before.reverse
        cause), m,
      .createDirectory m.directoryName parent :: before.map (.createEntry · directory) ++
        [.createEntry name directory] ++ before.reverse.map (.removeEntry · directory) ++
        [.removeDirectory m.directoryName parent]⟩

theorem mountRun_of_outcome {calls : List (Call δ)} {r : Except Failure δ} {changed : Diagnostics δ}
    (run : (init h.recorded entry parent).outcome (m, (s, [])) = (r, (changed, (t, calls)))) :
    mountRun h entry m parent s = ⟨r, changed, calls⟩ := by
  rw [mountRun, run]

theorem mountRun_of_declines (unmounted : m.directory = none) (entry : String → ρ)
    (declined : Declines (h.createDirectory m.directoryName parent) none s cause t) :
    DirectoryDeclined h m parent s (mountRun h entry m parent s) := by
  obtain ⟨line, hmount⟩ := mount_of_declines (h := h.recorded) entry
    (declined.recording (.createDirectory m.directoryName parent) [])
  exact ⟨cause, t, declined, mountRun_of_outcome (init_of_mount_fails unmounted hmount)⟩

theorem mountRun_of_creates (unmounted : m.directory = none)
    (created : (h.createDirectory m.directoryName parent).outcome s = (.ok (some directory), t))
    (entries : Creates h entry directory t m.names u) :
    EveryEntryCreated h entry m parent s (mountRun h entry m parent s) := by
  have hrecorded : (h.recorded.createDirectory m.directoryName parent).outcome (s, []) =
      (.ok (some directory), (t, [.createDirectory m.directoryName parent])) :=
    outcome_recording created []
  have hmount := mount_of_creates hrecorded
    (entries.recorded [.createDirectory m.directoryName parent])
  exact ⟨directory, t, u, created, entries, mountRun_of_outcome (init_of_mount unmounted hmount)⟩

theorem mountRun_of_entryDeclines (unmounted : m.directory = none)
    (created : (h.createDirectory m.directoryName parent).outcome s = (.ok (some directory), t))
    (split : m.names = before ++ name :: after) (entries : Creates h entry directory t before u)
    (declined : Declines (h.createEntry name directory (entry name)) false u cause v) :
    EntryDeclined h entry m parent s (mountRun h entry m parent s) := by
  let p : MountPoint δ :=
    ⟨directory, m.directoryName, parent, h.pathOf parent ++ "/" ++ m.directoryName⟩
  have hrecorded : (h.recorded.createDirectory m.directoryName parent).outcome (s, []) =
      (.ok (some directory), (t, [.createDirectory m.directoryName parent])) :=
    outcome_recording created []
  have hbefore := entries.recorded [.createDirectory m.directoryName parent]
  have hfailed := declined.recording (.createEntry name directory)
    ([.createDirectory m.directoryName parent] ++ before.map (.createEntry · directory))
  have hcreate : (createEntries h.recorded entry p [] (before ++ name :: after)).outcome _ = _ :=
    createEntries_of_declines hbefore hfailed [] after
  obtain ⟨w, habandon⟩ := abandon_recorded h p name before.reverse cause v
    ([.createDirectory m.directoryName parent] ++ before.map (.createEntry · directory) ++
      [.createEntry name directory])
  rw [List.append_nil, habandon] at hcreate
  have hmount : (m.mount h.recorded entry parent).outcome (s, []) = _ :=
    (mount_of_created entry hrecorded).trans (split ▸ Effect.outcome_bind_error hcreate _)
  exact ⟨directory, t, before, name, after, u, cause, v, created, split, entries, declined,
    mountRun_of_outcome (init_of_mount_fails unmounted hmount)⟩

theorem mountRun_cases (h : Host σ δ ρ) (entry : String → ρ) {m : Diagnostics δ}
    (unmounted : m.directory = none) (parent : δ) (s : σ) :
    DirectoryDeclined h m parent s (mountRun h entry m parent s) ∨
      EveryEntryCreated h entry m parent s (mountRun h entry m parent s) ∨
      EntryDeclined h entry m parent s (mountRun h entry m parent s) := by
  rcases hcall : (h.createDirectory m.directoryName parent).outcome s with ⟨e | made, t⟩
  · exact Or.inl (mountRun_of_declines unmounted entry (Or.inr ⟨e, hcall, rfl⟩))
  · cases made with
    | none => exact Or.inl (mountRun_of_declines unmounted entry (Or.inl ⟨hcall, rfl⟩))
    | some directory =>
      rcases creates_or_declines h entry directory m.names t with ⟨u, hall⟩ |
        ⟨before, name, after, u, cause, v, hsplit, hsome, hdeclined⟩
      · exact Or.inr (Or.inl (mountRun_of_creates unmounted hcall hall))
      · exact Or.inr (Or.inr (mountRun_of_entryDeclines unmounted hcall hsplit hsome hdeclined))

/-- Mounting unmounted diagnostics goes exactly one of three ways, whatever the host does at
each call; unless every entry is created the diagnostics stay unmounted. -/
theorem mountRun_trichotomy (h : Host σ δ ρ) (entry : String → ρ) (m : Diagnostics δ)
    (unmounted : m.directory = none) (parent : δ) (s : σ) :
    let run := mountRun h entry m parent s
    (DirectoryDeclined h m parent s run ∨ EveryEntryCreated h entry m parent s run ∨
      EntryDeclined h entry m parent s run) ∧
    ¬ (DirectoryDeclined h m parent s run ∧ EveryEntryCreated h entry m parent s run) ∧
    ¬ (DirectoryDeclined h m parent s run ∧ EntryDeclined h entry m parent s run) ∧
    ¬ (EveryEntryCreated h entry m parent s run ∧ EntryDeclined h entry m parent s run) := by
  intro run
  refine ⟨?_, ?_, ?_, ?_⟩
  · exact mountRun_cases h entry unmounted parent s
  · rintro ⟨⟨_, _, _, hdeclined⟩, ⟨_, _, _, _, _, hcreated⟩⟩
    cases hdeclined.symm.trans hcreated
  · rintro ⟨⟨_, _, _, hdeclined⟩, ⟨_, _, _, _, _, _, _, _, _, _, _, _, hfailed⟩⟩
    cases hdeclined.symm.trans hfailed
  · rintro ⟨⟨_, _, _, _, _, hcreated⟩, ⟨_, _, _, _, _, _, _, _, _, _, _, _, hfailed⟩⟩
    cases hcreated.symm.trans hfailed

/-- Unmounted diagnostics under default settings, with empty reports of the given names. -/
def bare (label : String) (names : List String) (distinct : names.Nodup) : Diagnostics δ where
  label
  settings := Settings.ofValue "x64" (.record [])
  reports := names.map fun name => ⟨name, false, fun _ => pure ()⟩
  names_nodup := by
    rw [Report.names, List.map_map]
    exact (List.map_id' names).symm ▸ distinct

/-- A host without a state that refuses every entry called "vm" and never lets go of one. -/
def stubborn : Host Unit String Unit where
  createDirectory name parent := pure (some (parent ++ "/" ++ name))
  createEntry name _ _ := pure (name != "vm")
  removeEntry _ _ := Action.fail (.plain "entry busy")
  removeDirectory _ _ := pure ()
  pathOf path := path
  note _ s := s

/-- The second entry is refused, and the first one is taken back although that fails. -/
theorem mountRun_stubborn :
    let m : Diagnostics String := bare "0" ["name", "vm"] (by decide)
    m.directory = none ∧
      EntryDeclined stubborn (fun _ => ()) m "/dri" ()
        (mountRun stubborn (fun _ => ()) m "/dri" ()) := by
  intro m
  refine ⟨rfl, ?_⟩
  rcases (mountRun_trichotomy stubborn (fun _ => ()) m rfl "/dri" ()).1 with
    ⟨_, _, ⟨hcall, _⟩ | ⟨_, hcall, _⟩, _⟩ | ⟨_, _, _, _, hall, _⟩ | hdeclined
  · cases hcall
  · cases hcall
  · cases hall with
    | next _ others => cases others with
      | next created _ => cases created
  · exact hdeclined

end Diagnostics

end DeviceReports
