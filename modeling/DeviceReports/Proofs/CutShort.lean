import DeviceReports.Proofs.TreeCalls

/-!
# Teardowns that are cut short

A teardown that fails at a removal leaves the diagnostics registered, and an init of registered
diagnostics is answered with their directory and does nothing else. So an init may return
although entries are missing: those that the failed teardowns have got to. The entries that are
there are all the others, and every one of them unless a teardown failed since the mount.
-/

set_option autoImplicit false

namespace DeviceReports

variable {σ δ ρ γ : Type}

/-- What a host promises although any of its calls may fail: `holds` tells which entries a
directory has, an answered call has done what it says, and a failed removal has done nothing.
Creations that fail are left open, for they end in diagnostics that are not registered. -/
structure Host.Atomic (h : Host σ δ ρ) (entry : String → ρ) (holds : σ → δ → String → Prop) :
    Prop where
  created {s t : σ} {name : String} {directory : δ}
    (call : (h.createEntry name directory (entry name)).outcome s = (.ok true, t)) :
    ∀ other, holds t directory other ↔ other = name ∨ holds s directory other
  removed {s t : σ} {name : String} {directory : δ}
    (call : (h.removeEntry name directory).outcome s = (.ok (), t)) :
    ∀ other, holds t directory other ↔ other ≠ name ∧ holds s directory other
  entryStays {s t : σ} {name : String} {directory : δ} {e : Failure}
    (call : (h.removeEntry name directory).outcome s = (.error e, t)) :
    ∀ other, holds t directory other ↔ holds s directory other
  directoryStays {s t : σ} {name : String} {parent : δ} {e : Failure}
    (call : (h.removeDirectory name parent).outcome s = (.error e, t)) :
    ∀ directory other, holds t directory other ↔ holds s directory other

namespace Diagnostics

open Host

variable {h : Host σ δ ρ} {entry : String → ρ} {holds : σ → δ → String → Prop}
  {m changed : Diagnostics δ} {parent directory : δ} {s t : σ} {names : List String}

/-! ### One call -/

theorem removeOrNote_ok (h : Host σ δ ρ) (path : String) (removal : Action σ Unit) (s : σ) :
    ∃ t, (removeOrNote h path removal).outcome s = (.ok (), t) := by
  rcases hcall : removal.outcome s with ⟨e | done, t⟩ <;>
    rw [removeOrNote, Effect.outcome_bind_ok (Action.outcome_attempt _ _), hcall] <;>
    exact ⟨_, rfl⟩

theorem removeEntries_ok (h : Host σ δ ρ) (p : MountPoint δ) (names : List String) (s : σ) :
    ∃ t, (removeEntries h p names).outcome s = (.ok (), t) := by
  induction names generalizing s with
  | nil => exact ⟨s, rfl⟩
  | cons name rest ih =>
    obtain ⟨t, hfirst⟩ := removeOrNote_ok h (p.path ++ "/" ++ name)
      (h.removeEntry name p.directory) s
    obtain ⟨u, hrest⟩ := ih t
    exact ⟨u, (Effect.outcome_bind_ok hfirst _).trans hrest⟩

/-- A mount that is given up does not return. -/
theorem abandon_fails (h : Host σ δ ρ) (p : MountPoint δ) (name : String) (made : List String)
    (cause : Option Cause) (s : σ) :
    ∃ t, (abandon h p name made cause).outcome s =
      (.error (.registration p.path name made cause), t) := by
  obtain ⟨t, hentries⟩ := removeEntries_ok h p made s
  obtain ⟨u, hdirectory⟩ := removeOrNote_ok h p.path (h.removeDirectory p.name p.parent) t
  rw [abandon, Effect.outcome_bind_ok hentries, Effect.outcome_bind_ok hdirectory]
  exact ⟨_, rfl⟩

/-- A mount returns only when every entry was created. -/
theorem creates_of_mount (returned : (m.mount h entry parent).outcome s = (.ok directory, t)) :
    ∃ u, Creates h entry directory u m.names t := by
  rcases hcall : (h.createDirectory m.directoryName parent).outcome s with ⟨e | _ | made, u⟩
  · obtain ⟨line, hmount⟩ := mount_of_declines entry (Or.inr ⟨e, hcall, rfl⟩)
    cases hmount.symm.trans returned
  · obtain ⟨line, hmount⟩ := mount_of_declines entry (Or.inl ⟨hcall, rfl⟩)
    cases hmount.symm.trans returned
  · rcases creates_or_declines h entry made m.names u with ⟨v, hall⟩ |
      ⟨before, name, after, v, cause, w, hsplit, hsome, hdeclined⟩
    · cases (mount_of_creates hcall hall).symm.trans returned
      exact ⟨u, hall⟩
    · have hmount := mount_of_created entry hcall
      have hcreate := createEntries_of_declines (p := ⟨made, m.directoryName, parent,
        h.pathOf parent ++ "/" ++ m.directoryName⟩) hsome hdeclined [] after
      obtain ⟨x, habandon⟩ := abandon_fails h ⟨made, m.directoryName, parent,
        h.pathOf parent ++ "/" ++ m.directoryName⟩ name (before.reverse ++ []) cause w
      rw [habandon, ← hsplit] at hcreate
      rw [Effect.outcome_bind_error hcreate] at hmount
      cases hmount.symm.trans returned

theorem holds_of_creates (atomic : h.Atomic entry holds)
    (created : Creates h entry directory s names t) :
    ∀ other, holds t directory other ↔ other ∈ names ∨ holds s directory other := by
  induction created with
  | none s =>
    intro other
    simp
  | next call _ ih =>
    intro other
    rw [ih, atomic.created call, List.mem_cons, or_left_comm, or_assoc]

/-- Removing names in order gets to some first ones of them. -/
theorem dismount_gets_to (atomic : h.Atomic entry holds) (directory : δ) (names : List String)
    (s : σ) :
    ∃ r t k, (dismount h directory names).outcome s = (r, t) ∧
      ∀ other, holds t directory other ↔ other ∉ names.take k ∧ holds s directory other := by
  induction names generalizing s with
  | nil => exact ⟨.ok (), s, 0, rfl, by simp⟩
  | cons name rest ih =>
    rcases hcall : (h.removeEntry name directory).outcome s with ⟨e | done, t⟩
    · refine ⟨.error e, t, 0, Effect.outcome_bind_error hcall _, ?_⟩
      intro other
      simp [atomic.entryStays hcall other]
    · obtain ⟨r, u, k, hrest, hheld⟩ := ih t
      refine ⟨r, u, k + 1, (Effect.outcome_bind_ok hcall _).trans hrest, ?_⟩
      intro other
      rw [hheld, atomic.removed hcall, List.take_succ_cons, List.mem_cons, not_or, and_left_comm,
        and_assoc]

/-- A teardown unmounts the diagnostics, or it fails after the removals that it got to. -/
theorem teardown_cases (atomic : h.Atomic entry holds) (mounted : m.directory = some directory)
    (parent : δ) (s : σ) :
    (∃ t, (teardown h parent).outcome (m, s) = (.ok (), ({ m with directory := none }, t))) ∨
      ∃ e t k, (teardown h parent).outcome (m, s) = (.error e, (m, t)) ∧
        ∀ other, holds t directory other ↔ other ∉ m.names.take k ∧ holds s directory other := by
  obtain ⟨r, t, k, hdismount, hheld⟩ := dismount_gets_to atomic directory m.names s
  cases r with
  | error e => exact Or.inr ⟨e, t, k, teardown_of_entry_fails mounted hdismount parent, hheld⟩
  | ok done =>
    rcases hcall : (h.removeDirectory m.directoryName parent).outcome t with ⟨e | removed, u⟩
    · refine Or.inr ⟨e, u, k, teardown_of_directory_fails mounted hdismount hcall, ?_⟩
      intro other
      rw [atomic.directoryStays hcall, hheld]
    · exact Or.inl ⟨u, teardown_of_removals mounted hdismount hcall⟩

/-! ### Runs -/

/-- A call to diagnostics, always under the same parent. -/
inductive LifeCall where
  | init
  | teardown
deriving DecidableEq

/-- Diagnostics beside the state of their host. `torn` tells whether a teardown has failed
since they were mounted. -/
structure Life (δ σ : Type) where
  diagnostics : Diagnostics δ
  host : σ
  torn : Bool := false

namespace Life

/-- What a call does to the diagnostics and to their host. -/
def act (h : Host σ δ ρ) (entry : String → ρ) (parent : δ) :
    LifeCall → Action (Diagnostics δ × σ) Unit
  | .init => do
    let _ ← init h entry parent
    pure ()
  | .teardown => teardown h parent

/-- One call. -/
def perform (h : Host σ δ ρ) (entry : String → ρ) (parent : δ) (life : Life δ σ) (c : LifeCall) :
    Except Failure Unit × Life δ σ :=
  match (act h entry parent c).outcome (life.diagnostics, life.host) with
  | (.ok (), (m, s)) => (.ok (), ⟨m, s, life.torn && m.isRegistered⟩)
  | (.error e, (m, s)) => (.error e, ⟨m, s, m.isRegistered⟩)

/-- Calls one after the other; one that fails does not keep the next from being made. -/
def run (h : Host σ δ ρ) (entry : String → ρ) (parent : δ) (life : Life δ σ)
    (calls : List LifeCall) : Life δ σ :=
  calls.foldl (fun life c => (life.perform h entry parent c).2) life

variable {life : Life δ σ} {c : LifeCall} {e : Failure}

theorem act_init_ok (run : (init h entry parent).outcome (m, s) = (.ok directory, (changed, t))) :
    (act h entry parent .init).outcome (m, s) = (.ok (), (changed, t)) := by
  rw [act, Effect.outcome_bind_ok run, Effect.outcome_pure]

theorem act_init_error (run : (init h entry parent).outcome (m, s) = (.error e, (changed, t))) :
    (act h entry parent .init).outcome (m, s) = (.error e, (changed, t)) := by
  rw [act, Effect.outcome_bind_error run]

theorem perform_ok (run : (act h entry parent c).outcome (life.diagnostics, life.host) =
      (.ok (), (changed, t))) :
    life.perform h entry parent c = (.ok (), ⟨changed, t, life.torn && changed.isRegistered⟩) := by
  rw [perform, run]

theorem perform_error (run : (act h entry parent c).outcome (life.diagnostics, life.host) =
      (.error e, (changed, t))) :
    life.perform h entry parent c = (.error e, ⟨changed, t, changed.isRegistered⟩) := by
  rw [perform, run]

/-- Of the reports of registered diagnostics the first `k` are gone and the others are there. -/
def Lacks (holds : σ → δ → String → Prop) (life : Life δ σ) (directory : δ) (k : Nat) : Prop :=
  ∀ name ∈ life.diagnostics.names,
    (holds life.host directory name ↔ name ∉ life.diagnostics.names.take k)

/-- What every run keeps: registered diagnostics lack the reports that failed teardowns got to. -/
def Sound (holds : σ → δ → String → Prop) (life : Life δ σ) : Prop :=
  ∀ directory, life.diagnostics.directory = some directory →
    ∃ k, life.Lacks holds directory k ∧ (life.torn = false → k = 0)

theorem sound_of_unmounted (unmounted : life.diagnostics.directory = none) : life.Sound holds := by
  intro directory hdirectory
  rw [unmounted] at hdirectory
  cases hdirectory

/-- A mount that returns has mounted every report. -/
theorem sound_mount (atomic : h.Atomic entry holds)
    (returned : (m.mount h entry parent).outcome s = (.ok directory, t)) (torn : Bool) :
    (⟨{ m with directory := some directory }, t, torn⟩ : Life δ σ).Sound holds := by
  obtain ⟨u, hcreates⟩ := creates_of_mount returned
  intro other hother
  cases hother
  refine ⟨0, ?_, fun _ => rfl⟩
  intro name hname
  have hheld := (holds_of_creates atomic hcreates name).mpr (Or.inl hname)
  simp [hheld]

/-- What a teardown got to adds to what the ones before it got to. -/
theorem Lacks.after {directory : δ} {k j : Nat} (lacks : life.Lacks holds directory k)
    (gone : ∀ other, holds t directory other ↔
      other ∉ life.diagnostics.names.take j ∧ holds life.host directory other) (torn : Bool) :
    (⟨life.diagnostics, t, torn⟩ : Life δ σ).Lacks holds directory (max k j) := by
  intro name hname
  have htake : name ∈ life.diagnostics.names.take (max k j) ↔
      name ∈ life.diagnostics.names.take k ∨ name ∈ life.diagnostics.names.take j := by
    rcases Nat.le_total k j with hkj | hjk
    · rw [Nat.max_eq_right hkj]
      exact ⟨Or.inr, fun h => h.elim (fun hk => List.take_subset_take_left _ hkj hk) id⟩
    · rw [Nat.max_eq_left hjk]
      exact ⟨Or.inl, fun h => h.elim id fun hj => List.take_subset_take_left _ hjk hj⟩
  change holds t directory name ↔ name ∉ life.diagnostics.names.take (max k j)
  rw [gone, lacks name hname, htake, not_or, and_comm]

/-- One call keeps the invariant, and the reports are the same ones. -/
theorem perform_sound (atomic : h.Atomic entry holds) (sound : life.Sound holds) (parent : δ)
    (c : LifeCall) :
    (life.perform h entry parent c).2.Sound holds ∧
      (life.perform h entry parent c).2.diagnostics.names = life.diagnostics.names := by
  rcases hmounted : life.diagnostics.directory with _ | directory
  · cases c with
    | init =>
      rcases hmount : (life.diagnostics.mount h entry parent).outcome life.host with ⟨e | made, t⟩
      · rw [perform_error (act_init_error (init_of_mount_fails hmounted hmount))]
        exact ⟨sound_of_unmounted hmounted, rfl⟩
      · rw [perform_ok (act_init_ok (init_of_mount hmounted hmount))]
        exact ⟨sound_mount atomic hmount _, rfl⟩
    | teardown =>
      rw [perform_ok (c := .teardown) (teardown_unmounted hmounted h parent life.host)]
      exact ⟨sound_of_unmounted hmounted, rfl⟩
  · obtain ⟨k, hlacks, hwhole⟩ := sound directory hmounted
    have hregistered : life.diagnostics.isRegistered = true := by
      rw [isRegistered, hmounted]
      rfl
    cases c with
    | init =>
      have hinit := act_init_ok (init_mounted hmounted h entry parent life.host)
      rw [perform_ok hinit, hregistered, Bool.and_true]
      exact ⟨sound, rfl⟩
    | teardown =>
      rcases teardown_cases atomic hmounted parent life.host with
        ⟨t, hcall⟩ | ⟨e, t, j, hcall, hgone⟩
      · rw [perform_ok (c := .teardown) hcall]
        exact ⟨sound_of_unmounted rfl, rfl⟩
      · rw [perform_error (c := .teardown) hcall, hregistered]
        refine ⟨?_, rfl⟩
        intro other hother
        cases hmounted.symm.trans hother
        exact ⟨max k j, hlacks.after hgone true, fun huntorn => by cases huntorn⟩

theorem run_sound (atomic : h.Atomic entry holds) (sound : life.Sound holds) (parent : δ)
    (calls : List LifeCall) :
    (life.run h entry parent calls).Sound holds ∧
      (life.run h entry parent calls).diagnostics.names = life.diagnostics.names := by
  induction calls generalizing life with
  | nil => exact ⟨sound, rfl⟩
  | cons c rest ih =>
    obtain ⟨hsound, hnames⟩ := perform_sound atomic sound parent c
    obtain ⟨hrun, hsame⟩ := ih hsound
    exact ⟨hrun, hsame.trans hnames⟩

/-- An init that returns finds diagnostics registered afterwards. -/
theorem registered_of_init {later : Life δ σ}
    (returned : life.perform h entry parent .init = (.ok (), later)) :
    ∃ directory, later.diagnostics.directory = some directory := by
  rcases hmounted : life.diagnostics.directory with _ | directory
  · rcases hmount : (life.diagnostics.mount h entry parent).outcome life.host with ⟨e | made, t⟩
    · cases (perform_error (act_init_error (init_of_mount_fails hmounted hmount))).symm.trans
        returned
    · cases (perform_ok (act_init_ok (init_of_mount hmounted hmount))).symm.trans returned
      exact ⟨made, rfl⟩
  · cases (perform_ok (act_init_ok (init_mounted hmounted h entry parent life.host))).symm.trans
      returned
    exact ⟨directory, hmounted⟩

/-- In every run, when init returns, the reports that failed teardowns got to are missing from the
directory and all others are mounted in it: every report, unless a teardown has failed since the
mount. -/
theorem mounted_unless_torn (atomic : h.Atomic entry holds) (m : Diagnostics δ)
    (unmounted : m.directory = none) (parent : δ) (s : σ) (calls : List LifeCall)
    {later : Life δ σ}
    (returned : ((⟨m, s, false⟩ : Life δ σ).run h entry parent calls).perform h entry parent .init =
      (.ok (), later)) :
    ∃ directory k, later.diagnostics.directory = some directory ∧
      (∀ name ∈ m.names.take k, ¬ holds later.host directory name) ∧
      (∀ name ∈ m.names.drop k, holds later.host directory name) ∧
      (later.torn = false → k = 0) := by
  have hstart : (⟨m, s, false⟩ : Life δ σ).Sound holds := sound_of_unmounted unmounted
  obtain ⟨hrun, hnames⟩ := run_sound atomic hstart parent calls
  obtain ⟨hsound, hsame⟩ := perform_sound atomic hrun parent .init
  rw [returned] at hsound hsame
  have hreports : later.diagnostics.names = m.names := hsame.trans hnames
  obtain ⟨directory, hdirectory⟩ := registered_of_init returned
  obtain ⟨k, hlacks, hwhole⟩ := hsound directory hdirectory
  rw [Lacks, hreports] at hlacks
  have hdisjoint : (m.names.take k).Disjoint (m.names.drop k) :=
    List.disjoint_take_drop m.names_nodup (Nat.le_refl k)
  refine ⟨directory, k, hdirectory, ?_, ?_, hwhole⟩
  · intro name hname hheld
    exact (hlacks name (List.mem_of_mem_take hname)).mp hheld hname
  · intro name hname
    exact (hlacks name (List.mem_of_mem_drop hname)).mpr fun htaken => hdisjoint htaken hname

end Life
end Diagnostics

namespace Gate

open EntryTree

/-- Whether a gated tree has the entry of a name in a directory. -/
def Holds (entry : String → ρ) (st : γ × EntryTree ρ) (directory name : String) : Prop :=
  (join directory name, entry name) ∈ st.2.entries

variable {g : Gate γ} {entry : String → ρ} {name parent : String} {st later : γ × EntryTree ρ}
  {e : Failure}

/-- A call to a gated tree passes, or it leaves the tree as it was: it is refused or fails. -/
theorem through_cases {α : Type} {call : HostCall} {refused : α}
    {act : Action (γ × EntryTree ρ) α} {r : Except Failure α}
    (run : (g.through call refused act).outcome st = (r, later)) :
    (∃ memory, act.outcome (memory, st.2) = (r, later)) ∨
      (later.2 = st.2 ∧
        (((g.judge call st.1).1 = .refuse ∧ r = .ok refused) ∨ ∃ f, r = .error f)) := by
  obtain ⟨memory, t⟩ := st
  rw [through, Effect.outcome_ofOutcome] at run
  dsimp only at run ⊢
  rcases hjudge : g.judge call memory with ⟨_ | _ | f, told⟩ <;> rw [hjudge] at run
  · exact Or.inl ⟨told, run⟩
  · cases run
    exact Or.inr ⟨rfl, Or.inl ⟨rfl, rfl⟩⟩
  · cases run
    exact Or.inr ⟨rfl, Or.inr ⟨f, rfl⟩⟩

theorem entries_of_createEntry
    (call : (g.createEntry name parent (entry name)).outcome st = (.ok true, later)) :
    later.2.entries = st.2.entries ++ [(join parent name, entry name)] := by
  rcases through_cases call with ⟨memory, hpassed⟩ | ⟨-, ⟨-, hrefused⟩ | ⟨f, hfailed⟩⟩
  · rw [Effect.outcome_bind_ok (outcome_tree _)] at hpassed
    rcases hadd : st.2.addEntry name parent (entry name) with _ | grown <;> rw [hadd] at hpassed
    · cases hpassed
    · cases hpassed
      rw [addEntry] at hadd
      split_ifs at hadd
      cases hadd
      rfl
  · cases hrefused
  · cases hfailed

/-- A call that returns has passed, where the gate does not refuse it. -/
theorem passed_of_through {α : Type} {call : HostCall} {refused : α}
    {act : Action (γ × EntryTree ρ) α} {a : α}
    (heeds : ∀ memory, (g.judge call memory).1 ≠ .refuse)
    (returned : (g.through call refused act).outcome st = (.ok a, later)) :
    ∃ memory, act.outcome (memory, st.2) = (.ok a, later) := by
  rcases through_cases returned with hpassed | ⟨-, ⟨hrefused, -⟩ | ⟨f, hfailed⟩⟩
  · exact hpassed
  · exact absurd hrefused (heeds st.1)
  · cases hfailed

theorem entries_of_removeEntry
    (heeds : ∀ memory, (g.judge (.removeEntry name parent) memory).1 ≠ .refuse)
    (call : (g.removeEntry name parent : Action (γ × EntryTree ρ) Unit).outcome st =
      (.ok (), later)) :
    later.2.entries = st.2.entries.filter (·.1 != join parent name) := by
  obtain ⟨memory, hpassed⟩ := passed_of_through heeds call
  cases hpassed
  rfl

theorem tree_of_removeEntry
    (call : (g.removeEntry name parent : Action (γ × EntryTree ρ) Unit).outcome st =
      (.error e, later)) : later.2 = st.2 := by
  rcases through_cases call with ⟨memory, hpassed⟩ | ⟨hsame, -⟩
  · cases hpassed
  · exact hsame

/-- A gate that refuses no removal of an entry, and whose failing removals of a directory leave
the tree as it was, is a host that promises what is asked of it. -/
theorem host_atomic (g : Gate γ) (entry : String → ρ)
    (heeds : ∀ name parent memory, (g.judge (.removeEntry name parent) memory).1 ≠ .refuse)
    (whole : ∀ name parent (st later : γ × EntryTree ρ) e,
      (g.removeDirectory name parent).outcome st = (.error e, later) → later.2 = st.2) :
    (g.host : Host (γ × EntryTree ρ) String ρ).Atomic entry (Holds entry) where
  created {s t name directory} call other := by
    have hentries := entries_of_createEntry (g := g) call
    rw [Holds, hentries, List.mem_append, List.mem_singleton, Or.comm]
    refine or_congr_left ⟨fun h => ?_, fun h => by rw [h]⟩
    exact join_injective directory (congrArg Prod.fst h)
  removed {s t name directory} call other := by
    have hentries := entries_of_removeEntry (g := g) (heeds name directory) call
    have hname : join directory other = join directory name ↔ other = name :=
      ⟨fun h => join_injective directory h, fun h => by rw [h]⟩
    rw [Holds, hentries, List.mem_filter, And.comm, bne_iff_ne, Ne, hname]
    rfl
  entryStays {s t name directory e} call other := by
    rw [Holds, tree_of_removeEntry (g := g) call]
    rfl
  directoryStays {s t name parent e} call directory other := by
    rw [Holds, whole name parent s t e call]
    rfl

/-- A gate that fails to remove any directory, and any entry called "vm". -/
def jammed : Gate Unit where
  judge call memory :=
    match call with
    | .removeEntry name _ => (if name = "vm" then .fail (.plain "busy") else .pass, memory)
    | .removeDirectory _ _ => (.fail (.plain "busy"), memory)
    | _ => (.pass, memory)
  note _ memory := memory

theorem jammed_atomic (entry : String → ρ) :
    (jammed.host : Host (Unit × EntryTree ρ) String ρ).Atomic entry (Holds entry) := by
  apply host_atomic
  · intro name parent memory
    simp only [jammed]
    split_ifs <;> nofun
  · rintro name parent ⟨memory, t⟩ later e hcall
    cases hcall
    rfl

end Gate

namespace Diagnostics.Life

open Gate

/-- Two reports, of which the second is not removed by the jammed gate. -/
def pair : Diagnostics String := bare "0" ["name", "vm"] (by decide)

/-- The pair after a mount and a teardown that fails at its second report. -/
def halved : Life String (Unit × EntryTree Unit) :=
  (⟨pair, ((), .new "/dri"), false⟩ : Life _ _).run jammed.host (fun _ => ()) "/dri"
    [.init, .teardown]

/-- An init of the halved pair returns, and one of the two reports is missing. -/
theorem init_of_halved :
    jammed.host.Atomic (fun _ => ()) (Holds fun _ => ()) ∧ pair.directory = none ∧
      halved.perform jammed.host (fun _ => ()) "/dri" .init = (.ok (), halved) ∧
      halved.diagnostics.directory = some "/dri/0" ∧ "name" ∈ pair.names ∧
      ¬ Holds (fun _ => ()) halved.host "/dri/0" "name" := by
  have hentries : halved.host.2.entries = [("/dri/0/vm", ())] := rfl
  refine ⟨jammed_atomic _, rfl, rfl, rfl, List.mem_cons_self, ?_⟩
  rw [Holds, hentries]
  decide

/-- What is missing and what is there in the halved pair are a first part and the rest. -/
theorem mounted_halved :
    ∃ directory k, halved.diagnostics.directory = some directory ∧
      (∀ name ∈ pair.names.take k, ¬ Holds (fun _ => ()) halved.host directory name) ∧
      (∀ name ∈ pair.names.drop k, Holds (fun _ => ()) halved.host directory name) ∧
      (halved.torn = false → k = 0) :=
  mounted_unless_torn (jammed_atomic _) pair rfl "/dri" ((), .new "/dri") [.init, .teardown] rfl

end Diagnostics.Life

end DeviceReports
