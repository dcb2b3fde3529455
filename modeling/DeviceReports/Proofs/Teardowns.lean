import DeviceReports.Proofs.CutShort

/-!
# Teardowns until one returns

A teardown asks for its removals in a fixed order and stops at the first that fails; then the
diagnostics are registered as before, and the next teardown starts over. What matters in the end
is the one teardown that returns: whatever the ones before it got to, nothing of what it removed
is left. It removes the directory from the parent that it is given. That this is the parent of
the mount is the caller's affair: under another parent it returns as well, and the directory of
the mount stays.
-/

set_option autoImplicit false

namespace DeviceReports

variable {σ δ ρ γ α : Type}

/-! ### Removals in turn -/

/-- A removal that a host is asked for. -/
inductive Removal (δ : Type) where
  | entry (name : String) (place : δ)
  | directory (name : String) (parent : δ)

def Removal.call : Removal δ → Host.Call δ
  | .entry name place => .removeEntry name place
  | .directory name parent => .removeDirectory name parent

namespace Host

def remove (h : Host σ δ ρ) : Removal δ → Action σ Unit
  | .entry name place => h.removeEntry name place
  | .directory name parent => h.removeDirectory name parent

/-- Removals that return one after the other, from one state of the host to another. -/
inductive Removes (h : Host σ δ ρ) : σ → List (Removal δ) → σ → Prop
  | none (s : σ) : Removes h s [] s
  | next {s t u : σ} {r : Removal δ} {rest : List (Removal δ)}
      (returned : (h.remove r).outcome s = (.ok (), t)) (others : Removes h t rest u) :
      Removes h s (r :: rest) u

/-- Asks for removals in turn, up to the first that fails. -/
def removeInTurn (h : Host σ δ ρ) : List (Removal δ) → Action σ Unit
  | [] => pure ()
  | r :: rest => do
    h.remove r
    removeInTurn h rest

variable {h : Host σ δ ρ} {s t u : σ} {removals before : List (Removal δ)} {e : Failure}

/-- Either all removals return, or some first one fails. -/
theorem removes_or_fails (h : Host σ δ ρ) (removals : List (Removal δ)) (s : σ) :
    (∃ t, h.Removes s removals t) ∨
      ∃ before failed after t e u, removals = before ++ failed :: after ∧ h.Removes s before t ∧
        (h.remove failed).outcome t = (.error e, u) := by
  induction removals generalizing s with
  | nil => exact Or.inl ⟨s, .none s⟩
  | cons r rest ih =>
    rcases hcall : (h.remove r).outcome s with ⟨e | done, t⟩
    · exact Or.inr ⟨[], r, rest, s, e, t, rfl, .none s, hcall⟩
    · rcases ih t with ⟨u, hall⟩ | ⟨before, failed, after, u, e, v, hsplit, hsome, hfailed⟩
      · exact Or.inl ⟨u, .next hcall hall⟩
      · exact Or.inr ⟨r :: before, failed, after, u, e, v, by rw [hsplit]; rfl,
          .next hcall hsome, hfailed⟩

theorem remove_recorded (h : Host σ δ ρ) (r : Removal δ) :
    h.recorded.remove r = recording r.call (h.remove r) := by
  cases r <;> rfl

theorem removeInTurn_append (h : Host σ δ ρ) (first second : List (Removal δ)) :
    h.removeInTurn (first ++ second) = (do
      h.removeInTurn first
      h.removeInTurn second) := by
  induction first with
  | nil => rfl
  | cons r rest ih => simp only [List.cons_append, removeInTurn, ih, bind_assoc]

theorem Removes.recorded (removed : h.Removes s removals t) (calls : List (Call δ)) :
    (h.recorded.removeInTurn removals).outcome (s, calls) =
      (.ok (), (t, calls ++ removals.map Removal.call)) := by
  induction removed generalizing calls with
  | none s =>
    rw [List.map_nil, List.append_nil]
    rfl
  | @next s t u r rest hcall _ ih =>
    have hfirst : (h.recorded.remove r).outcome (s, calls) = (.ok (), (t, calls ++ [r.call])) := by
      rw [remove_recorded]
      exact outcome_recording hcall calls
    have hrest := ih (calls ++ [r.call])
    rw [List.append_assoc, List.singleton_append] at hrest
    exact (Effect.outcome_bind_ok hfirst _).trans hrest

theorem recorded_of_fails (removed : h.Removes s before t) {failed : Removal δ}
    (fails : (h.remove failed).outcome t = (.error e, u)) (after : List (Removal δ)) :
    (h.recorded.removeInTurn (before ++ failed :: after)).outcome (s, []) =
      (.error e, (u, (before ++ [failed]).map Removal.call)) := by
  have hfailed : (h.recorded.remove failed).outcome (t, before.map Removal.call) =
      (.error e, (u, before.map Removal.call ++ [failed.call])) := by
    rw [remove_recorded]
    exact outcome_recording fails _
  have hbefore := removed.recorded []
  rw [List.nil_append] at hbefore
  rw [removeInTurn_append, Effect.outcome_bind_ok hbefore, List.map_append]
  exact Effect.outcome_bind_error hfailed _

/-- A host whose removals take away what they name and bring nothing. `entryAt` and
`directoryAt` tell what stands under a name in a directory. A removal that returns leaves nothing
under its name, be it that it found nothing there; one that fails may have no effect. -/
structure Clears (h : Host σ δ ρ) (entryAt directoryAt : σ → δ → String → Prop) : Prop where
  entry_gone {s t : σ} {name : String} {directory : δ}
    (call : (h.removeEntry name directory).outcome s = (.ok (), t)) : ¬ entryAt t directory name
  directory_gone {s t : σ} {name : String} {parent : δ}
    (call : (h.removeDirectory name parent).outcome s = (.ok (), t)) : ¬ directoryAt t parent name
  nothing_new (r : Removal δ) (s : σ) (place : δ) (name : String) :
    (entryAt ((h.remove r).outcome s).2 place name → entryAt s place name) ∧
      (directoryAt ((h.remove r).outcome s).2 place name → directoryAt s place name)

variable {entryAt directoryAt : σ → δ → String → Prop}

/-- What is gone at some point of a run of removals is gone at its end. -/
theorem Removes.nothing_new (clears : h.Clears entryAt directoryAt)
    (removed : h.Removes s removals t) (place : δ) (name : String) :
    (entryAt t place name → entryAt s place name) ∧
      (directoryAt t place name → directoryAt s place name) := by
  induction removed with
  | none s => exact ⟨id, id⟩
  | @next s t u r rest hcall _ ih =>
    have hfirst := clears.nothing_new r s place name
    rw [hcall] at hfirst
    exact ⟨hfirst.1 ∘ ih.1, hfirst.2 ∘ ih.2⟩

/-- After a run of removals that all return, none of what they name is left. -/
theorem Removes.gone (clears : h.Clears entryAt directoryAt) (removed : h.Removes s removals t) :
    ∀ r ∈ removals, match r with
      | .entry name directory => ¬ entryAt t directory name
      | .directory name parent => ¬ directoryAt t parent name := by
  induction removed with
  | none s => nofun
  | @next s t u r rest hcall others ih =>
    intro other hother
    rcases List.mem_cons.mp hother with rfl | hrest
    · cases other with
      | entry name directory =>
        exact fun there => clears.entry_gone hcall ((others.nothing_new clears _ _).1 there)
      | directory name parent =>
        exact fun there => clears.directory_gone hcall ((others.nothing_new clears _ _).2 there)
    · exact ih other hrest

end Host

/-! ### Gated trees -/

namespace EntryTree

/-- A tree within another: it has the same root and no path that the other lacks. -/
structure Within (t u : EntryTree ρ) : Prop where
  root : t.root = u.root
  directories : t.directories ⊆ u.directories
  entries : t.entries ⊆ u.entries

variable {t u v : EntryTree ρ}

theorem Within.refl (t : EntryTree ρ) : t.Within t := ⟨rfl, fun _ => id, fun _ => id⟩

theorem Within.trans (first : t.Within u) (second : u.Within v) : t.Within v :=
  ⟨first.root.trans second.root, List.Subset.trans first.directories second.directories,
    List.Subset.trans first.entries second.entries⟩

theorem dropEntry_within (t : EntryTree ρ) (path : String) : (t.dropEntry path).Within t :=
  ⟨rfl, fun _ => id, fun _ => List.mem_of_mem_filter⟩

theorem dropDirectory_within (t : EntryTree ρ) (path : String) : (t.dropDirectory path).Within t :=
  ⟨rfl, fun _ => List.mem_of_mem_filter, fun _ => id⟩

end EntryTree

namespace Gate

open EntryTree

variable {β : Type} {g : Gate γ} {call : HostCall} {refused : α} {name parent : String}
  {act : Action (γ × EntryTree ρ) α} {st later : γ × EntryTree ρ}

/-- Actions that keep what holds of a tree, also when they fail. -/
def Keeps (kept : EntryTree ρ → Prop) (act : Action (γ × EntryTree ρ) α) : Prop :=
  ∀ st, kept st.2 → kept (act.outcome st).2.2

section Keeps

variable {kept : EntryTree ρ → Prop}

theorem Keeps.bind {f : α → Action (γ × EntryTree ρ) β} (first : Keeps kept act)
    (rest : ∀ a, Keeps kept (f a)) : Keeps kept (act >>= f) := by
  intro st holds
  have hfirst := first st holds
  rcases hact : act.outcome st with ⟨e | a, mid⟩ <;> rw [hact] at hfirst
  · rw [Effect.outcome_bind_error hact]
    exact hfirst
  · rw [Effect.outcome_bind_ok hact]
    exact rest a mid hfirst

theorem Keeps.through (passed : Keeps kept act) (g : Gate γ) (call : HostCall) (refused : α) :
    Keeps kept (g.through call refused act) := by
  intro st holds
  rcases hrun : (g.through call refused act).outcome st with ⟨r, later⟩
  rcases through_cases hrun with ⟨memory, hpassed⟩ | ⟨hsame, -⟩
  · have hkept := passed (memory, st.2) holds
    rw [hpassed] at hkept
    exact hkept
  · exact hsame ▸ holds

theorem keeps_pure (a : α) : Keeps kept (pure a : Action (γ × EntryTree ρ) α) :=
  fun _ holds => holds

theorem keeps_tree : Keeps kept (tree : Action (γ × EntryTree ρ) _) := fun _ holds => holds

theorem removeEntry_keeps (entry : ∀ t path, kept t → kept (t.dropEntry path)) (g : Gate γ)
    (name parent : String) : Keeps kept (g.removeEntry name parent) := by
  apply Keeps.through
  exact fun st => entry st.2 _

variable (entry : ∀ t path, kept t → kept (t.dropEntry path))
  (directory : ∀ t path, kept t → kept (t.dropDirectory path))
include entry

theorem removeChildren_keeps (g : Gate γ)
    {removeDirectory : String → String → Action (γ × EntryTree ρ) Unit}
    (keeps : ∀ name parent, Keeps kept (removeDirectory name parent)) (path : String)
    (children : List Listed) : Keeps kept (g.removeChildren removeDirectory path children) := by
  induction children with
  | nil => exact keeps_pure ()
  | cons c rest ih =>
    rw [removeChildren]
    rcases c.kind
    · exact (removeEntry_keeps entry g c.name path).bind fun _ => ih
    · exact (keeps c.name path).bind fun _ => ih

include directory

theorem removeLevels_keeps (g : Gate γ) (depth : Nat) (name parent : String) :
    Keeps kept (removeLevels g depth name parent) := by
  induction depth generalizing name parent with
  | zero => exact keeps_pure ()
  | succ depth ih =>
    rw [removeLevels]
    apply Keeps.through
    refine keeps_tree.bind fun t => ?_
    split_ifs
    · exact keeps_pure ()
    · exact (removeChildren_keeps entry g ih _ _).bind fun _ st => directory st.2 _

/-- The removal of a directory keeps what dropping an entry and dropping a directory keep. -/
theorem removeDirectory_keeps (g : Gate γ) (name parent : String) :
    Keeps kept (g.removeDirectory name parent) :=
  keeps_tree.bind fun _ => removeLevels_keeps entry directory g _ name parent

end Keeps

theorem removeEntry_within (g : Gate γ) (name parent : String) (st : γ × EntryTree ρ) :
    ((g.removeEntry name parent : Action (γ × EntryTree ρ) Unit).outcome st).2.2.Within st.2 := by
  have hkeeps : Keeps (·.Within st.2) (g.removeEntry name parent) :=
    removeEntry_keeps (fun t path h => (dropEntry_within t path).trans h) g name parent
  exact hkeeps st (Within.refl st.2)

theorem removeDirectory_within (g : Gate γ) (name parent : String) (st : γ × EntryTree ρ) :
    ((g.removeDirectory name parent : Action (γ × EntryTree ρ) Unit).outcome st).2.2.Within
      st.2 := by
  have hkeeps : Keeps (·.Within st.2) (g.removeDirectory name parent) :=
    removeDirectory_keeps (fun t path h => (dropEntry_within t path).trans h)
      (fun t path h => (dropDirectory_within t path).trans h) g name parent
  exact hkeeps st (Within.refl st.2)

/-- A removal of a directory that returns leaves no directory at its path, the root apart. -/
theorem directory_gone
    (heeds : ∀ memory, (g.judge (.removeDirectory name parent) memory).1 ≠ .refuse)
    (returned : (g.removeDirectory name parent : Action (γ × EntryTree ρ) Unit).outcome st =
      (.ok (), later)) :
    ¬ (join parent name ∈ later.2.directories ∧ join parent name ≠ later.2.root) := by
  obtain ⟨t, mid, htree, hlevels⟩ := Effect.exists_of_bind_outcome returned
  obtain ⟨memory, hpassed⟩ := passed_of_through heeds hlevels
  obtain ⟨u, opened, hopened, hbody⟩ := Effect.exists_of_bind_outcome hpassed
  cases hopened
  split_ifs at hbody with hroot
  · cases hbody
    exact fun hstays => hstays.2 hroot
  · obtain ⟨_, emptied, -, hdropped⟩ := Effect.exists_of_bind_outcome hbody
    cases hdropped
    intro hstays
    simp [dropDirectory] at hstays

/-- Whether a gated tree has an entry of a name in a directory. -/
def EntryAt (st : γ × EntryTree ρ) (directory name : String) : Prop :=
  join directory name ∈ st.2.entries.map Prod.fst

/-- Whether a gated tree has a directory of a name in a parent that can be removed. -/
def DirectoryAt (st : γ × EntryTree ρ) (parent name : String) : Prop :=
  join parent name ∈ st.2.directories ∧ join parent name ≠ st.2.root

theorem nothing_new_of_within {st later : γ × EntryTree ρ} (within : later.2.Within st.2)
    (place name : String) : (EntryAt later place name → EntryAt st place name) ∧
      (DirectoryAt later place name → DirectoryAt st place name) := by
  obtain ⟨hroot, hdirectories, hentries⟩ := within
  constructor
  · exact fun there => List.map_subset _ hentries there
  · rintro ⟨hthere, hinner⟩
    rw [hroot] at hinner
    exact ⟨hdirectories hthere, hinner⟩

/-- A tree behind a gate that refuses no removal is cleared by the removals that return. The gate
may fail any of them, those that a removal of a directory makes on its way among them. -/
theorem host_clears (heeds : ∀ (r : Removal String) memory, (g.judge r.call memory).1 ≠ .refuse) :
    (g.host : Host (γ × EntryTree ρ) String ρ).Clears EntryAt DirectoryAt where
  entry_gone {s t name directory} returned := by
    have hentries := entries_of_removeEntry (g := g) (heeds (.entry name directory)) returned
    rw [EntryAt, hentries]
    simp
  directory_gone {s t name parent} returned :=
    directory_gone (g := g) (heeds (.directory name parent)) returned
  nothing_new r s place name := by
    cases r with
    | entry removed directory =>
      exact nothing_new_of_within (removeEntry_within g removed directory s) place name
    | directory removed parent =>
      exact nothing_new_of_within (removeDirectory_within g removed parent s) place name

/-- A gate that fails the first removal of an entry called "vm". -/
def hesitant : Gate Bool where
  judge call tried :=
    match call with
    | .removeEntry name _ =>
      if name = "vm" ∧ tried = false then (.fail (.plain "busy"), true) else (.pass, tried)
    | _ => (.pass, tried)
  note _ tried := tried

theorem hesitant_heeds (r : Removal String) (tried : Bool) :
    (hesitant.judge r.call tried).1 ≠ .refuse := by
  cases r with
  | entry name place =>
    simp only [hesitant, Removal.call]
    split_ifs <;> nofun
  | directory name parent => nofun

theorem pass_heeds (r : Removal String) (lines : List String) :
    (Gate.pass.judge r.call lines).1 ≠ .refuse := nofun

end Gate

/-! ### One teardown -/

namespace Diagnostics

open Host

/-- The removals of a teardown: the entries of the reports in their order, then the directory. -/
def removals (m : Diagnostics δ) (directory parent : δ) : List (Removal δ) :=
  m.names.map (.entry · directory) ++ [.directory m.directoryName parent]

/-- The run of a teardown: what it answers, the diagnostics and the state of the host afterwards,
and the calls made. -/
structure TeardownRun (σ δ : Type) where
  result : Except Failure Unit
  diagnostics : Diagnostics δ
  host : σ
  calls : List (Call δ)

/-- Tears diagnostics down on a host that is in some state. -/
def teardownRun (h : Host σ δ ρ) (m : Diagnostics δ) (parent : δ) (s : σ) : TeardownRun σ δ :=
  let (result, (diagnostics, (host, calls))) :=
    (teardown h.recorded parent).outcome (m, (s, []))
  ⟨result, diagnostics, host, calls⟩

/-- Every removal returns, and the diagnostics are not registered any more. -/
def Completed (h : Host σ δ ρ) (m : Diagnostics δ) (directory parent : δ) (s : σ)
    (run : TeardownRun σ δ) : Prop :=
  ∃ t, h.Removes s (m.removals directory parent) t ∧
    run = ⟨.ok (), { m with directory := none }, t,
      (m.removals directory parent).map Removal.call⟩

/-- A first removal fails: its failure is the answer, no other is asked for, and the diagnostics
stay as they are. -/
def CutShort (h : Host σ δ ρ) (m : Diagnostics δ) (directory parent : δ) (s : σ)
    (run : TeardownRun σ δ) : Prop :=
  ∃ before failed after t e u, m.removals directory parent = before ++ failed :: after ∧
    h.Removes s before t ∧ (h.remove failed).outcome t = (.error e, u) ∧
    run = ⟨.error e, m, u, (before ++ [failed]).map Removal.call⟩

variable {h : Host σ δ ρ} {m : Diagnostics δ} {directory parent : δ} {s t : σ}

theorem dismount_eq (h : Host σ δ ρ) (directory : δ) (names : List String) :
    dismount h directory names = h.removeInTurn (names.map (.entry · directory)) := by
  induction names with
  | nil => rfl
  | cons name rest ih => simp only [dismount, ih, List.map_cons, removeInTurn, Host.remove]

theorem onHost_bind {β : Type} (act : Action σ α) (f : α → Action σ β) :
    (onHost (act >>= f) : Action (Diagnostics δ × σ) β) = onHost act >>= fun a => onHost (f a) := by
  refine Effect.ext_outcome fun (m, s) => ?_
  rcases hact : act.outcome s with ⟨e | a, t⟩
  · rw [Effect.outcome_bind_error (outcome_onHost hact m)]
    exact outcome_onHost (Effect.outcome_bind_error hact f) m
  · rw [Effect.outcome_bind_ok (outcome_onHost hact m)]
    exact outcome_onHost (Effect.outcome_bind_ok hact f) m

theorem outcome_teardown (mounted : m.directory = some directory) (h : Host σ δ ρ) (parent : δ)
    (s : σ) :
    (teardown h parent).outcome (m, s) =
      (do
        onHost (h.removeInTurn (m.removals directory parent))
        settle none : Action (Diagnostics δ × σ) Unit).outcome (m, s) := by
  rw [teardown_mounted mounted, removals, removeInTurn_append, onHost_bind, dismount_eq]
  simp only [removeInTurn, Host.remove, bind_pure_unit, bind_assoc]

/-- Diagnostics that are not registered ask nothing of the host. -/
theorem teardownRun_unmounted (unmounted : m.directory = none) (h : Host σ δ ρ) (parent : δ)
    (s : σ) : teardownRun h m parent s = ⟨.ok (), m, s, []⟩ := by
  rw [teardownRun, teardown_unmounted unmounted]

theorem teardownRun_cases (mounted : m.directory = some directory) (h : Host σ δ ρ) (parent : δ)
    (s : σ) :
    Completed h m directory parent s (teardownRun h m parent s) ∨
      CutShort h m directory parent s (teardownRun h m parent s) := by
  have hteardown := outcome_teardown mounted h.recorded parent (s, [])
  rcases h.removes_or_fails (m.removals directory parent) s with
    ⟨t, hall⟩ | ⟨before, failed, after, t, e, u, hsplit, hbefore, hfailed⟩
  · refine Or.inl ⟨t, hall, ?_⟩
    rw [teardownRun, hteardown, Effect.outcome_bind_ok (outcome_onHost (hall.recorded []) m)]
    rfl
  · refine Or.inr ⟨before, failed, after, t, e, u, hsplit, hbefore, hfailed, ?_⟩
    have hcut := recorded_of_fails hbefore hfailed after
    rw [← hsplit] at hcut
    rw [teardownRun, hteardown, Effect.outcome_bind_error (outcome_onHost hcut m)]

/-! ### Attempts -/

/-- Tears diagnostics down again and again, each time under a parent of its own. -/
def afterTeardowns (h : Host σ δ ρ) (m : Diagnostics δ) (s : σ) (parents : List δ) :
    Diagnostics δ × σ :=
  parents.foldl (fun life parent =>
    ((teardownRun h life.1 parent life.2).diagnostics, (teardownRun h life.1 parent life.2).host))
    (m, s)

theorem afterTeardowns_append (h : Host σ δ ρ) (m : Diagnostics δ) (s : σ) (first second : List δ) :
    afterTeardowns h m s (first ++ second) =
      afterTeardowns h (afterTeardowns h m s first).1 (afterTeardowns h m s first).2 second := by
  rw [afterTeardowns, List.foldl_append]
  rfl

theorem afterTeardowns_unmounted (unmounted : m.directory = none) (h : Host σ δ ρ) (s : σ)
    (parents : List δ) : afterTeardowns h m s parents = (m, s) := by
  induction parents with
  | nil => rfl
  | cons parent rest ih =>
    rw [afterTeardowns, List.foldl_cons, teardownRun_unmounted unmounted]
    exact ih

/-- Attempts leave diagnostics as they are, or unregistered. -/
theorem afterTeardowns_cases (h : Host σ δ ρ) (m : Diagnostics δ) (s : σ) (parents : List δ) :
    (afterTeardowns h m s parents).1 = m ∨ (afterTeardowns h m s parents).1.directory = none := by
  induction parents generalizing s with
  | nil => exact Or.inl rfl
  | cons parent rest ih =>
    rcases hmounted : m.directory with _ | directory
    · rw [afterTeardowns_unmounted hmounted]
      exact Or.inl rfl
    · rw [afterTeardowns, List.foldl_cons]
      rcases teardownRun_cases hmounted h parent s with
        ⟨t, -, hrun⟩ | ⟨before, failed, after, t, e, u, -, -, -, hrun⟩
      all_goals rw [hrun]
      · have hnone : ({ m with directory := none } : Diagnostics δ).directory = none := rfl
        right
        exact congrArg (·.1.directory) (afterTeardowns_unmounted hnone h t rest)
      · exact ih u

/-- What holds from the first teardown that returns on: nothing of what it removes is left, and
neither the diagnostics nor the host change any more, for no further teardown makes a call. -/
structure Cleared (h : Host σ δ ρ) (m : Diagnostics δ) (directory parent : δ)
    (entryAt directoryAt : σ → δ → String → Prop) (later : Diagnostics δ × σ) : Prop where
  unregistered : later.1 = { m with directory := none }
  entries_gone : ∀ name ∈ m.names, ¬ entryAt later.2 directory name
  directory_gone : ¬ directoryAt later.2 parent m.directoryName
  silent : ∀ further, teardownRun h later.1 further later.2 = ⟨.ok (), later.1, later.2, []⟩

theorem Completed.cleared {run : TeardownRun σ δ} {entryAt directoryAt : σ → δ → String → Prop}
    (completed : Completed h m directory parent s run) (clears : h.Clears entryAt directoryAt) :
    Cleared h m directory parent entryAt directoryAt (run.diagnostics, run.host) := by
  obtain ⟨t, hremoved, rfl⟩ := completed
  have hgone := hremoved.gone clears
  constructor
  · rfl
  · intro name hname
    exact hgone (.entry name directory) (List.mem_append_left _ (List.mem_map_of_mem hname))
  · exact hgone (.directory m.directoryName parent) (by simp [removals])
  · exact fun further => teardownRun_unmounted rfl h further t

/-- Every teardown of registered diagnostics makes its removals in order, up to the first that
fails, and leaves them registered then. Whatever a number of attempts have got to, under whatever
parents: once one returns, nothing of what it removes is left for good. -/
theorem teardowns_until_one_returns (mounted : m.directory = some directory) (h : Host σ δ ρ) :
    (∀ parent s, Completed h m directory parent s (teardownRun h m parent s) ∨
      CutShort h m directory parent s (teardownRun h m parent s)) ∧
    ∀ entryAt directoryAt, h.Clears entryAt directoryAt → ∀ s earlier parent further,
      (afterTeardowns h m s earlier).1.isRegistered = true →
      (teardownRun h (afterTeardowns h m s earlier).1 parent
        (afterTeardowns h m s earlier).2).result.isOk = true →
      Cleared h m directory parent entryAt directoryAt
        (afterTeardowns h m s (earlier ++ parent :: further)) := by
  refine ⟨fun parent s => teardownRun_cases mounted h parent s, ?_⟩
  intro entryAt directoryAt clears s earlier parent further registered returned
  have hsame : (afterTeardowns h m s earlier).1 = m := by
    refine (afterTeardowns_cases h m s earlier).resolve_right fun hnone => ?_
    rw [isRegistered, hnone] at registered
    cases registered
  rw [hsame] at returned
  have hcompleted : Completed h m directory parent (afterTeardowns h m s earlier).2
      (teardownRun h m parent (afterTeardowns h m s earlier).2) := by
    refine (teardownRun_cases mounted h parent _).resolve_right ?_
    rintro ⟨before, failed, after, t, e, u, -, -, -, hrun⟩
    rw [hrun] at returned
    cases returned
  have hcleared := hcompleted.cleared clears
  have hunmounted := congrArg Diagnostics.directory hcleared.unregistered
  rw [afterTeardowns_append, hsame]
  exact (afterTeardowns_unmounted hunmounted h _ further).symm ▸ hcleared

section Pair

open Gate Life

/-- The pair of reports as it is mounted under the root. -/
def mountedPair : Diagnostics String := { pair with directory := some "/dri/0" }

def pairTree : EntryTree Unit where
  root := "/dri"
  directories := ["/dri", "/dri/0"]
  entries := [("/dri/0/name", ()), ("/dri/0/vm", ())]

/-- The first attempt fails at the second of two entries, and under another parent. The second one
returns, and a third one has nothing to do. -/
theorem teardowns_hesitant :
    let attempted := afterTeardowns hesitant.host mountedPair (false, pairTree) ["/"]
    mountedPair.directory = some "/dri/0" ∧ hesitant.host.Clears (EntryAt (ρ := Unit)) DirectoryAt ∧
      attempted.1.isRegistered = true ∧
      (teardownRun hesitant.host attempted.1 "/dri" attempted.2).result.isOk = true ∧
      Cleared hesitant.host mountedPair "/dri/0" "/dri" EntryAt DirectoryAt
        (afterTeardowns hesitant.host mountedPair (false, pairTree) ["/", "/dri", "/"]) := by
  intro attempted
  have hclears : hesitant.host.Clears (EntryAt (ρ := Unit)) DirectoryAt :=
    host_clears hesitant_heeds
  have hregistered : attempted.1.isRegistered = true := by decide +kernel
  have hreturned :
      (teardownRun hesitant.host attempted.1 "/dri" attempted.2).result.isOk = true := by
    decide +kernel
  exact ⟨rfl, hclears, hregistered, hreturned,
    (teardowns_until_one_returns rfl hesitant.host).2 _ _ hclears (false, pairTree) ["/"] "/dri"
      ["/"] hregistered hreturned⟩

/-- Under another parent than that of the mount a teardown returns as well, and leaves the directory
of the mount. -/
theorem teardown_elsewhere :
    (init pass.host (fun _ => ()) "/dri").outcome (pair, ([], .new "/dri")) =
        (.ok "/dri/0", (mountedPair, ([], pairTree))) ∧
      pass.host.Clears (EntryAt (ρ := Unit)) DirectoryAt ∧
      let run := teardownRun pass.host mountedPair "/" ([], pairTree)
      run.result.isOk = true ∧ run.diagnostics.isRegistered = false ∧
        run.host.2.isDirectory "/dri/0" = true := by
  refine ⟨rfl, host_clears pass_heeds, ?_⟩
  decide +kernel

end Pair

end Diagnostics

end DeviceReports
