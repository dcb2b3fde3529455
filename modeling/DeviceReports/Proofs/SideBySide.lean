import DeviceReports.Proofs.DeviceDirectories
import Mathlib.Logic.Function.Basic

/-!
# Devices side by side

Any number of diagnostics share one tree and are mounted and unmounted in any order. Two
devices may have one index; then at most one of them is mounted at a time. Every run keeps the
tree what the list of the mounted devices makes it. Nothing is said of a tree that others
change too.
-/

set_option autoImplicit false

namespace DeviceReports

open EntryTree

/-- Diagnostics that share a tree, with the lines that the operator got. -/
structure Fleet (ι : Type) where
  lines : List String
  tree : EntryTree (ι × String)
  instances : ι → Diagnostics String

inductive Fleet.Command (ι : Type) where
  | init (i : ι)
  | teardown (i : ι)

namespace Fleet.Command

variable {ι : Type}

def target : Command ι → ι
  | .init i => i
  | .teardown i => i

/-- What a command does to the diagnostics it names and to the tree, under a root. Each entry
refers to its owner and its report. -/
def act (root : String) : Command ι →
    Action (Diagnostics String × List String × EntryTree (ι × String)) Unit
  | .init i => do
    let _ ← Diagnostics.init Gate.pass.host (fun name => (i, name)) root
    pure ()
  | .teardown _ => Diagnostics.teardown Gate.pass.host root

variable {root : String} {i : ι} {s t : Diagnostics String × List String × EntryTree (ι × String)}

theorem act_init_ok {directory : String}
    (run : (Diagnostics.init Gate.pass.host (fun name => (i, name)) root).outcome s =
      (.ok directory, t)) : (act root (.init i)).outcome s = (.ok (), t) := by
  rw [act, Effect.outcome_bind_ok run, Effect.outcome_pure]

theorem act_init_error {e : Failure}
    (run : (Diagnostics.init Gate.pass.host (fun name => (i, name)) root).outcome s =
      (.error e, t)) : (act root (.init i)).outcome s = (.error e, t) := by
  rw [act, Effect.outcome_bind_error run]

end Fleet.Command

namespace Fleet

variable {ι : Type} [DecidableEq ι]

/-- Runs a command at the root of the tree. -/
def perform (f : Fleet ι) (c : Command ι) : Except Failure Unit × Fleet ι :=
  let (result, (m, (lines, tree))) :=
    (c.act f.tree.root).outcome (f.instances c.target, (f.lines, f.tree))
  (result, ⟨lines, tree, Function.update f.instances c.target m⟩)

/-- Runs commands one after the other; one that fails does not keep the next from running. -/
def run (f : Fleet ι) (commands : List (Command ι)) : Fleet ι :=
  commands.foldl (fun f c => (f.perform c).2) f

/-- Nothing is mounted on a new tree. -/
def start (members : ι → Member) : Fleet ι :=
  ⟨[], .new defaultRoot, fun i => (members i).diagnostics⟩

/-- The fleet of which the given devices are mounted. -/
def laid (members : ι → Member) (mounted : List ι) (lines : List String) : Fleet ι where
  lines
  tree := laidTree members mounted
  instances i := if i ∈ mounted then (members i).mounted else (members i).diagnostics

theorem perform_of_outcome {f : Fleet ι} {c : Command ι} {r : Except Failure Unit}
    {m : Diagnostics String} {lines : List String} {tree : EntryTree (ι × String)}
    (run : (c.act f.tree.root).outcome (f.instances c.target, (f.lines, f.tree)) =
      (r, (m, (lines, tree)))) :
    f.perform c = (r, ⟨lines, tree, Function.update f.instances c.target m⟩) := by
  rw [perform, run]

variable {members : ι → Member} {mounted : List ι} {i : ι}

theorem instances_laid_of_mem (lines : List String) (hi : i ∈ mounted) :
    (laid members mounted lines).instances i = (members i).mounted := if_pos hi

theorem instances_laid_of_notMem (lines : List String) (hi : i ∉ mounted) :
    (laid members mounted lines).instances i = (members i).diagnostics := if_neg hi

theorem isRegistered_laid (lines : List String) :
    ((laid members mounted lines).instances i).isRegistered = true ↔ i ∈ mounted := by
  by_cases hi : i ∈ mounted
  · simp [instances_laid_of_mem lines hi, Member.mounted, Diagnostics.isRegistered, hi]
  · simp [instances_laid_of_notMem lines hi, Diagnostics.isRegistered, (members i).unmounted, hi]

theorem start_eq_laid : start members = laid members [] [] := by
  simp [start, laid, laidTree, EntryTree.new]

theorem update_laid (lines : List String) {later : List ι}
    (others : ∀ j, j ≠ i → (j ∈ later ↔ j ∈ mounted)) :
    Function.update (laid members mounted lines).instances i
      ((laid members later lines).instances i) = (laid members later lines).instances := by
  funext j
  by_cases hj : j = i
  · subst hj
    rw [Function.update_self]
  · rw [Function.update_of_ne hj]
    by_cases hm : j ∈ mounted
    · rw [instances_laid_of_mem lines hm, instances_laid_of_mem lines ((others j hj).mpr hm)]
    · rw [instances_laid_of_notMem lines hm,
        instances_laid_of_notMem lines fun h => hm ((others j hj).mp h)]

/-- A command that changes only which of the devices are mounted. -/
theorem perform_laid (lines : List String) (c : Command ι) (later : List ι)
    (run : (c.act defaultRoot).outcome
        ((laid members mounted lines).instances c.target, (lines, laidTree members mounted)) =
      (.ok (), ((laid members later lines).instances c.target, (lines, laidTree members later))))
    (others : ∀ j, j ≠ c.target → (j ∈ later ↔ j ∈ mounted)) :
    (laid members mounted lines).perform c = (.ok (), laid members later lines) := by
  rw [perform_of_outcome (f := laid members mounted lines) run, update_laid lines others]
  rfl

theorem perform_init_mounted (hi : i ∈ mounted) (lines : List String) :
    (laid members mounted lines).perform (.init i) = (.ok (), laid members mounted lines) := by
  have hdirectory : ((laid members mounted lines).instances i).directory =
      some (home (members i).index) := by rw [instances_laid_of_mem lines hi]; rfl
  refine perform_laid lines (.init i) mounted ?_ fun _ _ => Iff.rfl
  exact Command.act_init_ok (Diagnostics.init_mounted hdirectory _ _ _ _)

theorem perform_init_taken {j : ι} (hi : i ∉ mounted) (hj : j ∈ mounted)
    (same : (members j).index = (members i).index) (lines : List String) :
    ∃ line, (laid members mounted lines).perform (.init i) =
      (.error (.namespaceCreation (home (members i).index) none),
        laid members mounted (lines ++ [line])) := by
  have hrefused : ¬ (laidTree members mounted).admits (members i).diagnostics.directoryName
      defaultRoot = true := by
    rw [admits_iff, (members i).join_directoryName, not_and_not_right]
    exact fun _ => exists?_home.mpr ⟨j, hj, same⟩
  obtain ⟨line, hinit⟩ := Diagnostics.init_pass_refused (members i).unmounted
    (fun name => (i, name)) hrefused lines
  rw [← instances_laid_of_notMem lines hi] at hinit
  refine ⟨line, (perform_of_outcome (f := laid members mounted lines)
    (Command.act_init_error hinit)).trans ?_⟩
  rw [Command.target, Function.update_eq_self, Diagnostics.directoryName,
    instances_laid_of_notMem lines hi, (members i).label_eq]
  rfl

theorem perform_init_free (hi : i ∉ mounted)
    (free : ∀ j ∈ mounted, (members j).index ≠ (members i).index) (lines : List String) :
    (laid members mounted lines).perform (.init i) =
      (.ok (), laid members (mounted ++ [i]) lines) := by
  have hhome : ¬ (laidTree members mounted).exists? (home (members i).index) = true := by
    intro h
    obtain ⟨j, hj, hsame⟩ := exists?_home.mp h
    exact free j hj hsame
  have hbelow (name : String) :
      ¬ (laidTree members mounted).exists? (join (home (members i).index) name) = true := by
    intro h
    rcases exists?_iff.mp h with hdirectory | hentry
    · exact below_notMem_directories hdirectory
    · obtain ⟨j, hj, hsame⟩ := owner_of_below hentry
      exact free j hj hsame
  have hadmitted : (laidTree members mounted).admits (members i).diagnostics.directoryName
      defaultRoot = true := by
    rw [admits_iff, (members i).join_directoryName]
    exact ⟨List.mem_cons_self, hhome⟩
  have hinit := Diagnostics.init_pass (members i).unmounted (fun name => (i, name)) hadmitted
    (members i).join_directoryName (fun name => join_home_ne_home _ _ name) hbelow lines
  refine perform_laid lines (.init i) (mounted ++ [i]) ?_ ?_
  · rw [Command.target, instances_laid_of_notMem lines hi, instances_laid_of_mem lines (by simp),
      laidTree_append]
    exact Command.act_init_ok hinit
  · intro j hj
    simp [show j ≠ i from hj]

theorem perform_teardown_unmounted (hi : i ∉ mounted) (lines : List String) :
    (laid members mounted lines).perform (.teardown i) = (.ok (), laid members mounted lines) := by
  have hdirectory : ((laid members mounted lines).instances i).directory = none := by
    rw [instances_laid_of_notMem lines hi, (members i).unmounted]
  refine perform_laid lines (.teardown i) mounted ?_ fun _ _ => Iff.rfl
  exact Diagnostics.teardown_unmounted hdirectory _ _ _

theorem perform_teardown_mounted (apart : Apart members mounted) (hi : i ∈ mounted)
    (lines : List String) :
    (laid members mounted lines).perform (.teardown i) =
      (.ok (), laid members (mounted.filter (· ≠ i)) lines) := by
  have hcleared (child : String) :
      ¬ ((laidTree members mounted).dropEntries ((members i).diagnostics.names.map
        (join (home (members i).index)))).exists? (join (home (members i).index) child) = true := by
    rw [apart.dropEntries_laid hi]
    intro h
    rcases exists?_iff.mp h with hdirectory | hentry
    · exact below_notMem_directories hdirectory
    · obtain ⟨j, hj, hsame⟩ := owner_of_below hentry
      obtain ⟨hmem, hother⟩ := List.mem_filter.mp hj
      exact of_decide_eq_true hother (apart.eq_of_index hmem hi hsame)
  have hteardown := Diagnostics.teardown_pass (m := (members i).mounted)
    (members i).join_directoryName rfl (home_ne_root _) hcleared lines
  refine perform_laid lines (.teardown i) (mounted.filter (· ≠ i)) ?_ ?_
  · rw [Command.target, instances_laid_of_mem lines hi, instances_laid_of_notMem lines (by simp),
      ← apart.laidTree_filter hi, ← Member.unmount]
    exact hteardown
  · intro j hj
    simp [show j ≠ i from hj]

theorem filter_of_notMem (hi : i ∉ mounted) : mounted.filter (· ≠ i) = mounted :=
  List.filter_eq_self.mpr fun _ hj => decide_eq_true fun h => hi (h ▸ hj)

/-- A teardown takes one device from those that are mounted, if it is among them. -/
theorem perform_teardown (apart : Apart members mounted) (lines : List String) (i : ι) :
    (laid members mounted lines).perform (.teardown i) =
      (.ok (), laid members (mounted.filter (· ≠ i)) lines) := by
  by_cases hi : i ∈ mounted
  · exact perform_teardown_mounted apart hi lines
  · rw [filter_of_notMem hi]
    exact perform_teardown_unmounted hi lines

/-- A mount changes nothing where the device is mounted, fails where its index is taken, and
adds the device otherwise. -/
theorem perform_init_cases (members : ι → Member) (mounted : List ι) (lines : List String) (i : ι) :
    (i ∈ mounted ∧
      (laid members mounted lines).perform (.init i) = (.ok (), laid members mounted lines)) ∨
    (i ∉ mounted ∧ (∃ j ∈ mounted, (members j).index = (members i).index) ∧
      ∃ line, (laid members mounted lines).perform (.init i) =
        (.error (.namespaceCreation (home (members i).index) none),
          laid members mounted (lines ++ [line]))) ∨
    (i ∉ mounted ∧ (∀ j ∈ mounted, (members j).index ≠ (members i).index) ∧
      (laid members mounted lines).perform (.init i) =
        (.ok (), laid members (mounted ++ [i]) lines)) := by
  by_cases hi : i ∈ mounted
  · exact Or.inl ⟨hi, perform_init_mounted hi lines⟩
  · by_cases htaken : ∃ j ∈ mounted, (members j).index = (members i).index
    · obtain ⟨j, hj, hsame⟩ := htaken
      exact Or.inr (Or.inl ⟨hi, ⟨j, hj, hsame⟩, perform_init_taken hi hj hsame lines⟩)
    · have hfree : ∀ j ∈ mounted, (members j).index ≠ (members i).index :=
        fun j hj hsame => htaken ⟨j, hj, hsame⟩
      exact Or.inr (Or.inr ⟨hi, hfree, perform_init_free hi hfree lines⟩)

/-- A command leads from mounted devices with indexes of their own to such again. -/
theorem perform_apart (apart : Apart members mounted) (lines : List String) (c : Command ι) :
    ∃ later log, Apart members later ∧
      ((laid members mounted lines).perform c).2 = laid members later log := by
  cases c with
  | init i =>
    rcases perform_init_cases members mounted lines i with
      ⟨-, hrun⟩ | ⟨-, -, line, hrun⟩ | ⟨-, hfree, hrun⟩
    · exact ⟨mounted, lines, apart, by rw [hrun]⟩
    · exact ⟨mounted, lines ++ [line], apart, by rw [hrun]⟩
    · exact ⟨mounted ++ [i], lines, apart.append hfree, by rw [hrun]⟩
  | teardown i =>
    exact ⟨mounted.filter (· ≠ i), lines, apart.filter _, by rw [perform_teardown apart]⟩

theorem run_laid (apart : Apart members mounted) (lines : List String)
    (commands : List (Command ι)) :
    ∃ later log, Apart members later ∧
      (laid members mounted lines).run commands = laid members later log := by
  induction commands generalizing mounted lines with
  | nil => exact ⟨mounted, lines, apart, rfl⟩
  | cons c rest ih =>
    obtain ⟨next, noted, hnext, hstep⟩ := perform_apart apart lines c
    obtain ⟨later, log, hlater, hrun⟩ := ih hnext noted
    exact ⟨later, log, hlater, by rw [run, List.foldl_cons, hstep]; exact hrun⟩

/-- What is read through an entry: the report of its owner, on the device of its owner. -/
def serve {τ : Type} (f : Fleet ι) (view : ι → τ → Device) (put : ι → τ → Device → τ)
    (entry : ι × String) : Reader τ :=
  (f.instances entry.1).serve (view entry.1) (put entry.1) entry.2

/-- The tree holds the root, a directory for each registered device and an entry for each of its
reports, and nothing else; each entry reads what its device reads. -/
structure Exact (members : ι → Member) (f : Fleet ι) : Prop where
  directories_nodup : f.tree.directories.Nodup
  mem_directories : ∀ path, path ∈ f.tree.directories ↔
    path = defaultRoot ∨ ∃ i, (f.instances i).isRegistered ∧ path = home (members i).index
  paths_nodup : (f.tree.entries.map Prod.fst).Nodup
  mem_entries : ∀ path i name, (path, (i, name)) ∈ f.tree.entries ↔
    (f.instances i).isRegistered ∧ name ∈ (members i).diagnostics.names ∧
      path = home (members i).index ++ "/" ++ name
  reads : ∀ {τ : Type} (view : ι → τ → Device) (put : ι → τ → Device → τ) (i : ι) (name : String),
    (f.instances i).isRegistered → name ∈ (members i).diagnostics.names →
      ∀ offset length, f.tree.read (f.serve view put) (home (members i).index ++ "/" ++ name)
        offset length = ((f.instances i).read name offset length).focus (view i) (put i)
  apart : ∀ i j, (f.instances i).isRegistered → (f.instances j).isRegistered →
    (members i).index = (members j).index → i = j
  instance_eq : ∀ i, f.instances i =
    if (f.instances i).isRegistered then (members i).mounted else (members i).diagnostics

/-- How a mount goes: it fails for an index that another device has taken, and then changes
nothing, and a device that is registered stays as it is. -/
structure MountLaw (members : ι → Member) (f : Fleet ι) (i : ι) : Prop where
  again : (f.instances i).isRegistered → f.perform (.init i) = (.ok (), f)
  fails_iff : ¬ (f.instances i).isRegistered → ((∃ e, (f.perform (.init i)).1 = .error e) ↔
    ∃ j, j ≠ i ∧ (f.instances j).isRegistered ∧ (members j).index = (members i).index)
  failure : ∀ e, (f.perform (.init i)).1 = .error e →
    e = .namespaceCreation (home (members i).index) none ∧
      (f.perform (.init i)).2.tree = f.tree ∧ (f.perform (.init i)).2.instances = f.instances
  success : (f.perform (.init i)).1 = .ok () →
    ((f.perform (.init i)).2.instances i).isRegistered ∧
      ∀ j, j ≠ i → (f.perform (.init i)).2.instances j = f.instances j

/-- How a teardown goes: it leaves nothing of the device, and all else as it is. -/
structure TeardownLaw (members : ι → Member) (f : Fleet ι) (i : ι) : Prop where
  succeeds : (f.perform (.teardown i)).1 = .ok ()
  unregistered : ¬ ((f.perform (.teardown i)).2.instances i).isRegistered
  others : ∀ j, j ≠ i → (f.perform (.teardown i)).2.instances j = f.instances j
  entries : (f.perform (.teardown i)).2.tree.entries = f.tree.entries.filter (·.2.1 ≠ i)
  directories : (f.perform (.teardown i)).2.tree.directories =
    if (f.instances i).isRegistered then f.tree.directories.filter (· != home (members i).index)
    else f.tree.directories

theorem exact_laid (apart : Apart members mounted) (lines : List String) :
    Exact members (laid members mounted lines) where
  directories_nodup := apart.directories_nodup
  mem_directories path := by
    simp only [isRegistered_laid]
    simp only [laid, laidTree, List.mem_cons, List.mem_map, eq_comm]
  paths_nodup := apart.paths_nodup
  mem_entries path i name := by
    rw [isRegistered_laid, ← join_home]
    exact mem_entries_laid
  reads view put i name hi hname offset length := by
    have hmem : i ∈ mounted := (isRegistered_laid lines).mp hi
    have hcontent : (laid members mounted lines).tree.content (join (home (members i).index) name) =
        .ok (i, name) :=
      content_of_mem apart.paths_nodup (mem_entries_laid.mpr ⟨hmem, hname, rfl⟩)
    obtain ⟨r, hr⟩ : ∃ r, ((laid members mounted lines).instances i).reader name = .ok r := by
      rw [instances_laid_of_mem lines hmem]
      exact Diagnostics.reader_of_mem hname
    rw [← join_home, read_of_content hcontent, serve, Diagnostics.serve, hr, Diagnostics.read, hr]
    rfl
  apart i j hi hj hsame :=
    apart.eq_of_index ((isRegistered_laid lines).mp hi) ((isRegistered_laid lines).mp hj) hsame
  instance_eq i := by
    by_cases hi : i ∈ mounted
    · rw [if_pos ((isRegistered_laid lines).mpr hi), instances_laid_of_mem lines hi]
    · rw [if_neg fun h => hi ((isRegistered_laid lines).mp h), instances_laid_of_notMem lines hi]

theorem mountLaw_laid (mounted : List ι) (lines : List String) (i : ι) :
    MountLaw members (laid members mounted lines) i := by
  rcases perform_init_cases members mounted lines i with
    ⟨hi, hrun⟩ | ⟨hi, ⟨j, hj, hsame⟩, line, hrun⟩ | ⟨hi, hfree, hrun⟩
  · have hregistered : ((laid members mounted lines).instances i).isRegistered :=
      (isRegistered_laid lines).mpr hi
    refine ⟨fun _ => hrun, fun h => absurd hregistered h, ?_, ?_⟩ <;> rw [hrun]
    · exact fun e he => by cases he
    · exact fun _ => ⟨hregistered, fun _ _ => rfl⟩
  · have hother : j ≠ i := fun h => hi (h ▸ hj)
    refine ⟨fun h => absurd ((isRegistered_laid lines).mp h) hi, fun _ => ?_, ?_, ?_⟩ <;> rw [hrun]
    · exact ⟨fun _ => ⟨j, hother, (isRegistered_laid lines).mpr hj, hsame⟩, fun _ => ⟨_, rfl⟩⟩
    · rintro e ⟨⟩
      exact ⟨rfl, rfl, rfl⟩
    · exact fun h => by cases h
  · refine ⟨fun h => absurd ((isRegistered_laid lines).mp h) hi, fun _ => ?_, ?_, ?_⟩ <;> rw [hrun]
    · constructor
      · rintro ⟨e, he⟩
        cases he
      · rintro ⟨j, _, hj, hsame⟩
        exact absurd hsame (hfree j ((isRegistered_laid lines).mp hj))
    · exact fun e he => by cases he
    · refine fun _ => ⟨(isRegistered_laid lines).mpr (by simp), fun j hj => ?_⟩
      simp [laid, hj]

theorem teardownLaw_laid (apart : Apart members mounted) (lines : List String) (i : ι) :
    TeardownLaw members (laid members mounted lines) i := by
  have hrun := perform_teardown apart lines i
  refine ⟨?_, ?_, ?_, ?_, ?_⟩ <;> rw [hrun]
  · exact fun h => by simpa using (isRegistered_laid lines).mp h
  · exact fun j hj => by simp [laid, hj]
  · exact (filter_owner mounted i).symm
  · by_cases hi : i ∈ mounted
    · rw [if_pos ((isRegistered_laid lines).mpr hi)]
      exact (apart.filter_directories hi).symm
    · rw [if_neg (mt (isRegistered_laid lines).mp hi), filter_of_notMem hi]

/-- After any mounts and teardowns in any order the tree is exact, and the next mount or
teardown of each device goes by its law. -/
theorem run_side_by_side (members : ι → Member) (commands : List (Command ι)) :
    let f := (start members).run commands
    Exact members f ∧ ∀ i, MountLaw members f i ∧ TeardownLaw members f i := by
  intro f
  have hnone : Apart members [] := List.nodup_nil
  obtain ⟨mounted, lines, hapart, hrun⟩ := run_laid hnone [] commands
  have hf : f = laid members mounted lines := by rw [← hrun, ← start_eq_laid]
  rw [hf]
  exact ⟨exact_laid hapart lines, fun i =>
    ⟨mountLaw_laid mounted lines i, teardownLaw_laid hapart lines i⟩⟩

end Fleet

end DeviceReports
