import DeviceReports.Cat
import DeviceReports.Cat.Yaml
import DeviceReports.Proofs.DeviceDirectories
import DeviceReports.Proofs.LoadedReports
import DeviceReports.Proofs.Raising

/-!
# Runs of the cat command

A run prints entries one after the other. An entry that is printed leaves nothing behind, neither
in the device nor in the tree, so it prints what it would have printed in a run of its own: a run
that asks for several names is put together from runs that ask for one, up to the first name
without an entry. All there is to know about a loaded device is that nothing else runs on it.
-/

set_option autoImplicit false

namespace DeviceReports

open Text (Bytes)

theorem Except.exists_of_bind_ok {ε α β : Type} {x : Except ε α} {f : α → Except ε β} {b : β}
    (h : x >>= f = .ok b) : ∃ a, x = .ok a ∧ f a = .ok b := by
  cases x with
  | error e => cases h
  | ok a => exact ⟨a, rfl, h⟩

namespace Process

variable {σ α β : Type}

theorem always_ok {body : Process σ α} {final : Process σ Unit} {a : α} {s t u : σ}
    (run : body.outcome s = (.ok a, t)) (ends : final.outcome t = (.ok (), u)) :
    (body.always final).outcome s = (.ok a, u) := by
  rw [always, Effect.outcome_ofOutcome, run]
  dsimp only
  rw [ends]

/-- What follows a result may rely on what it is the result of. -/
theorem bind_ofExcept_congr {r : Except Failure α} {f g : α → Process σ β}
    (same : ∀ a, r = .ok a → f a = g a) : (ofExcept r >>= f) = (ofExcept r >>= g) := by
  apply Effect.ext_outcome
  intro s
  cases r with
  | error e =>
    rw [Effect.outcome_bind_error (outcome_error e s),
      Effect.outcome_bind_error (outcome_error e s)]
  | ok a =>
    rw [Effect.outcome_bind_ok (outcome_ok a s), Effect.outcome_bind_ok (outcome_ok a s),
      same a rfl]

end Process

/-! ### The tree of one mounted device -/

namespace EntryTree

theorem join_of_ne {parent : String} (inner : parent ≠ "/") (name : String) :
    join parent name = parent ++ "/" ++ name := if_neg inner

/-- Whatever stands in a directory has a longer path. -/
theorem length_lt_join {parent : String} (inner : parent ≠ "/") (name : String) :
    parent.length < (join parent name).length := by
  rw [join_of_ne inner, String.length_append, String.length_append]
  have hslash : "/".length = 1 := rfl
  omega

/-- The tree of a run before and after the reports are mounted. -/
def bare : EntryTree String := .new defaultRoot

/-- The directory of a device on a tree of its own. -/
def place (label : String) : String := join defaultRoot label

def laid (label : String) (names : List String) : EntryTree String where
  root := defaultRoot
  directories := [defaultRoot, place label]
  entries := names.map fun name => (join (place label) name, name)

variable {label name : String} {names : List String}

theorem root_length_lt_place (label : String) : defaultRoot.length < (place label).length :=
  length_lt_join (by decide) label

theorem place_ne_top (label : String) : place label ≠ "/" := by
  intro h
  have hlength := root_length_lt_place label
  rw [h] at hlength
  exact absurd hlength (by decide)

theorem place_ne_root (label : String) : place label ≠ defaultRoot := by
  intro h
  have hlength := root_length_lt_place label
  rw [h] at hlength
  exact Nat.lt_irrefl _ hlength

theorem join_place_ne_place (label name : String) : join (place label) name ≠ place label := by
  intro h
  have hlength := length_lt_join (place_ne_top label) name
  rw [h] at hlength
  exact Nat.lt_irrefl _ hlength

theorem join_place_ne_root (label name : String) : join (place label) name ≠ defaultRoot := by
  intro h
  have hlength := length_lt_join (place_ne_top label) name
  rw [h] at hlength
  exact Nat.lt_asymm hlength (root_length_lt_place label)

/-- Of the paths below a directory of reports those of the reports are there. -/
theorem exists?_laid :
    (laid label names).exists? (join (place label) name) = true ↔ name ∈ names := by
  rw [exists?_iff]
  constructor
  · rintro (hdirectory | hentry)
    · rcases List.mem_cons.mp hdirectory with hroot | hplace
      · exact absurd hroot (join_place_ne_root label name)
      · exact absurd (List.mem_singleton.mp hplace) (join_place_ne_place label name)
    · obtain ⟨e, he, hpath⟩ := List.mem_map.mp hentry
      obtain ⟨other, hother, rfl⟩ := List.mem_map.mp he
      obtain rfl : other = name := join_injective (place label) hpath
      exact hother
  · intro hname
    exact Or.inr (List.mem_map.mpr ⟨_, List.mem_map_of_mem hname, rfl⟩)

theorem content_laid (distinct : names.Nodup) (present : name ∈ names) :
    (laid label names).content (join (place label) name) = .ok name := by
  refine content_of_mem ?_ (List.mem_map.mpr ⟨name, present, rfl⟩)
  have hpaths : (laid label names).entries.map Prod.fst = names.map (join (place label)) := by
    rw [laid, List.map_map]
    rfl
  rw [hpaths]
  exact distinct.map (join_injective (place label))

/-- Without its reports nothing stands in the directory. -/
theorem dropEntries_laid (label : String) (names : List String) :
    (laid label names).dropEntries (names.map (join (place label))) =
      ⟨defaultRoot, [defaultRoot, place label], []⟩ := by
  have hnone : (laid label names).entries.filter
      (fun e => e.1 ∉ names.map (join (place label))) = [] := by
    refine List.filter_eq_nil_iff.mpr fun e he => ?_
    obtain ⟨name, hname, rfl⟩ := List.mem_map.mp he
    simpa using ⟨name, hname, rfl⟩
  rw [dropEntries, hnone]
  rfl

end EntryTree

namespace Diagnostics

open EntryTree Gate

variable {m : Diagnostics String}

/-- Reports are mounted on a tree of their own. -/
theorem init_bare (unmounted : m.directory = none) (lines : List String) :
    (init pass.host id defaultRoot).outcome (m, (lines, .bare)) =
      (.ok (place m.label), ({ m with directory := some (place m.label) },
        (lines, laid m.label m.names))) := by
  have hplace : ¬ (EntryTree.bare.exists? (place m.label) = true) := by
    intro h
    rcases exists?_iff.mp h with hdirectory | hentry
    · exact place_ne_root m.label (List.mem_singleton.mp hdirectory)
    · cases hentry
  have hbelow (name : String) : ¬ (EntryTree.bare.exists? (join (place m.label) name) = true) := by
    intro h
    rcases exists?_iff.mp h with hdirectory | hentry
    · exact join_place_ne_root m.label name (List.mem_singleton.mp hdirectory)
    · cases hentry
  exact init_pass unmounted id (admits_iff.mpr ⟨List.mem_singleton_self _, hplace⟩) rfl
    (join_place_ne_place m.label) hbelow lines

/-- What was mounted on a tree of its own is removed again, and nothing else. -/
theorem teardown_laid (mounted : m.directory = some (place m.label)) (lines : List String) :
    (teardown (pass.host : Host _ _ String) defaultRoot).outcome
        (m, (lines, laid m.label m.names)) =
      (.ok (), ({ m with directory := none }, (lines, .bare))) := by
  have hcleared : ∀ child, ¬ (((laid m.label m.names).dropEntries
      (m.names.map (join (place m.label)))).exists? (join (place m.label) child) = true) := by
    intro child h
    rw [dropEntries_laid] at h
    rcases exists?_iff.mp h with hdirectory | hentry
    · rcases List.mem_cons.mp hdirectory with hroot | hplace
      · exact join_place_ne_root m.label child hroot
      · exact join_place_ne_place m.label child (List.mem_singleton.mp hplace)
    · cases hentry
  have hbare : ((laid m.label m.names).dropEntries
      (m.names.map (join (place m.label)))).dropDirectory (place m.label) = .bare := by
    rw [dropEntries_laid, dropDirectory]
    simp [EntryTree.bare, EntryTree.new, (place_ne_root m.label).symm]
  rw [← hbare]
  exact teardown_pass (t := laid m.label m.names) rfl mounted (place_ne_root m.label) hcleared lines

end Diagnostics

namespace Cat

open EntryTree

/-! ### Printing entries -/

namespace Printed

/-- What is printed first, and what after it. -/
def andThen (p q : Printed) : Printed := ⟨p.writes ++ q.writes, p.logs ++ q.logs⟩

@[simp] theorem andThen_nothing (p : Printed) : p.andThen {} = p := by
  simp [andThen]

theorem andThen_assoc (p q r : Printed) : (p.andThen q).andThen r = p.andThen (q.andThen r) := by
  simp [andThen]

end Printed

/-- How many names stand before the first that has no entry. -/
def known (entries names : List String) : Nat := names.findIdx (· ∉ entries)

/-- The exit code of a run that asks for names. -/
def exitCode (entries names : List String) : Nat :=
  if known entries names < names.length then 1 else 0

/-- What is printed where names are asked for: what is printed for each of them up to the first
that has no entry, and that one is noted. -/
def printout (entries names : List String) (print : String → List String) : Printed where
  writes := (names.take (known entries names)).flatMap print
  logs := names[known entries names]?.toList.map fun name =>
    "[devinfo-cat] No such report: " ++ name

section Printout

variable {entries : List String} {name : String} {print : String → List String}

theorem mem_of_known {names : List String} (h : name ∈ names.take (known entries names)) :
    name ∈ entries := by
  by_contra hunknown
  obtain ⟨i, hi, hname⟩ := List.mem_take_iff_getElem.mp h
  have hbefore : i < known entries names := Nat.lt_of_lt_of_le hi (Nat.min_le_left _ _)
  have hfails := List.not_of_lt_findIdx hbefore
  rw [hname] at hfails
  simp [hunknown] at hfails

theorem known_cons_of_mem (present : name ∈ entries) (rest : List String) :
    known entries (name :: rest) = known entries rest + 1 := by
  simp [known, List.findIdx_cons, present]

theorem known_cons_of_notMem (absent : name ∉ entries) (rest : List String) :
    known entries (name :: rest) = 0 := by
  simp [known, List.findIdx_cons, absent]

theorem exitCode_cons_of_mem (present : name ∈ entries) (rest : List String) :
    exitCode entries (name :: rest) = exitCode entries rest := by
  simp [exitCode, known_cons_of_mem present]

theorem exitCode_cons_of_notMem (absent : name ∉ entries) (rest : List String) :
    exitCode entries (name :: rest) = 1 := by
  simp [exitCode, known_cons_of_notMem absent]

theorem printout_cons_of_mem (present : name ∈ entries) (rest : List String) :
    printout entries (name :: rest) print =
      Printed.andThen ⟨print name, []⟩ (printout entries rest print) := by
  simp [printout, known_cons_of_mem present, Printed.andThen]

theorem printout_cons_of_notMem (absent : name ∉ entries) (rest : List String) :
    printout entries (name :: rest) print =
      ⟨[], ["[devinfo-cat] No such report: " ++ name]⟩ := by
  simp [printout, known_cons_of_notMem absent]

theorem printout_congr {names : List String} {print' : String → List String}
    (same : ∀ name ∈ entries, print name = print' name) :
    printout entries names print = printout entries names print' := by
  have hwrites : (names.take (known entries names)).flatMap print =
      (names.take (known entries names)).flatMap print' :=
    List.flatMap_congr fun name hname => same name (mem_of_known hname)
  rw [printout, printout, hwrites]

end Printout

namespace Mounted

/-- The state after more was printed. -/
def after (s : Mounted) (more : Printed) : Mounted := { s with printed := s.printed.andThen more }

variable (s : Mounted)

@[simp] theorem outcome_write (text : String) :
    (write text).outcome s = (.ok (), s.after ⟨[text], []⟩) := by
  simp [write, after, Printed.andThen]

@[simp] theorem outcome_log (line : String) :
    (log line).outcome s = (.ok (), s.after ⟨[], [line]⟩) := by
  simp [log, after, Printed.andThen]

@[simp] theorem after_after (p q : Printed) : (s.after p).after q = s.after (p.andThen q) := by
  simp [after, Printed.andThen_assoc]

@[simp] theorem after_nothing : s.after {} = s := by
  simp [after]

end Mounted

open Mounted

/-- The line above an entry where several are printed. -/
def heading (path : String) : String := "==> " ++ path ++ " <==\n"

/-- The diagnostics of a run as they are when mounted. -/
def mounted (m : Diagnostics String) : Diagnostics String :=
  { m with directory := some (place m.label) }

/-- The states of a run while its diagnostics are mounted. -/
structure Mounts (m : Diagnostics String) (d : Device) (s : Mounted) : Prop where
  device : s.device = d
  tree : s.tree = laid m.label m.names
  diagnostics : s.diagnostics = mounted m

/-- The reports of a device drain to bytes, each in every state of a run, and nothing changes. -/
def Serves (m : Diagnostics String) (d : Device) (chunk : Number) (bytes : String → Bytes) : Prop :=
  ∀ name ∈ m.names, ∀ s : Mounted, s.device = d →
    ((m.serve device putDevice name).drain chunk).outcome s = (.ok (bytes name), s)

variable {m : Diagnostics String} {d : Device} {chunk : Number} {bytes : String → Bytes}

theorem Mounts.after {s : Mounted} (mounts : Mounts m d s) (more : Printed) :
    Mounts m d (s.after more) := ⟨mounts.device, mounts.tree, mounts.diagnostics⟩

theorem Mounts.serve_eq {s : Mounted} (mounts : Mounts m d s) :
    s.serve = m.serve Mounted.device putDevice := by
  rw [Mounted.serve, mounts.diagnostics]
  rfl

theorem text_of_serves (serves : Serves m d chunk bytes) {name : String} (present : name ∈ m.names)
    {s : Mounted} (device : s.device = d) :
    ((laid m.label m.names).text (m.serve Mounted.device putDevice) (join (place m.label) name)
      chunk).outcome s = (.ok (Text.decode (bytes name)), s) := by
  have hcontent : (laid m.label m.names).content (join (place m.label) name) = .ok name :=
    content_laid m.names_nodup present
  rw [EntryTree.text, hcontent, Effect.outcome_bind_ok (Process.outcome_ok name s),
    Effect.outcome_bind_ok (serves name present s device), Effect.outcome_pure]

/-- What an entry prints, under its heading where there is one. -/
def shown (headed : Bool) (directory : String) (texts : String → List String) (name : String) :
    List String :=
  (if headed then [heading (join directory name)] else []) ++ texts name

section Entries

variable (headed : Bool) {name : String} {s : Mounted}

/-- A name with an entry prints it, and the other names follow. -/
theorem printEntries_known (serves : Serves m d chunk bytes) (present : name ∈ m.names)
    (rest : List String) (mounts : Mounts m d s) :
    (printEntries (place m.label) headed chunk (name :: rest)).outcome s =
      (printEntries (place m.label) headed chunk rest).outcome
        (s.after ⟨shown headed (place m.label) (fun name => [Text.decode (bytes name)]) name,
          []⟩) := by
  have hpath : place m.label ++ "/" ++ name = join (place m.label) name :=
    (join_of_ne (place_ne_top m.label) name).symm
  rw [printEntries, Effect.outcome_bind_ok (Effect.outcome_get s)]
  dsimp only
  rw [mounts.tree, mounts.serve_eq, hpath, if_pos (exists?_laid.mpr present)]
  cases headed with
  | false =>
    simp only [Bool.false_eq_true, if_false]
    rw [Effect.outcome_bind_ok (text_of_serves serves present mounts.device),
      Effect.outcome_bind_ok (outcome_write s _)]
    rfl
  | true =>
    rw [if_pos rfl, Effect.outcome_bind_ok (outcome_write s _)]
    have htext := text_of_serves serves present
      (mounts.after ⟨[heading (join (place m.label) name)], []⟩).device
    rw [← heading, Effect.outcome_bind_ok htext, Effect.outcome_bind_ok (outcome_write _ _),
      Mounted.after_after]
    rfl

/-- A name without an entry is noted, and the other names are left. -/
theorem printEntries_unknown (absent : name ∉ m.names) (rest : List String)
    (mounts : Mounts m d s) :
    (printEntries (place m.label) headed chunk (name :: rest)).outcome s =
      (.ok 1, s.after ⟨[], ["[devinfo-cat] No such report: " ++ name]⟩) := by
  have hpath : place m.label ++ "/" ++ name = join (place m.label) name :=
    (join_of_ne (place_ne_top m.label) name).symm
  rw [printEntries, Effect.outcome_bind_ok (Effect.outcome_get s)]
  dsimp only
  rw [mounts.tree, hpath, if_neg (mt exists?_laid.mp absent),
    Effect.outcome_bind_ok (outcome_log s _)]
  rfl

theorem outcome_printEntries (serves : Serves m d chunk bytes) (names : List String)
    (mounts : Mounts m d s) :
    (printEntries (place m.label) headed chunk names).outcome s =
      (.ok (exitCode m.names names), s.after (printout m.names names
        (shown headed (place m.label) fun name => [Text.decode (bytes name)]))) := by
  induction names generalizing s with
  | nil => exact congrArg (Prod.mk _) s.after_nothing.symm
  | cons name rest ih =>
    by_cases hname : name ∈ m.names
    · rw [printEntries_known headed serves hname rest mounts, ih (mounts.after _),
        Mounted.after_after, exitCode_cons_of_mem hname, printout_cons_of_mem hname]
    · rw [printEntries_unknown headed hname rest mounts, exitCode_cons_of_notMem hname,
        printout_cons_of_notMem hname]

end Entries

/-! ### Whole runs -/

theorem outcome_onMount {α : Type} {s : Mounted} {r : Except Failure α} {m : Diagnostics String}
    {g : List String × EntryTree String}
    {act : Action (Diagnostics String × List String × EntryTree String) α}
    (run : act.outcome (s.diagnostics, s.gated) = (r, (m, g))) :
    (onMount act).outcome s =
      (r.mapError .failed, { s.putGated g with diagnostics := m }) := by
  rw [onMount, Effect.outcome_focus, Process.outcome_ofAction, run]

/-- The diagnostics of a run serve what is printed. -/
theorem exists_serves {m : Diagnostics String} {d : Device} (quiet : d.Quiet)
    (builtin : ∀ r ∈ m.reports, r ∈ Report.builtin true) {limit capacity : Nat}
    (bounds : m.settings.bounds = Bounds.ofCounts limit capacity) {chunk : Number} {c : Nat}
    (count : chunk.count? = some (c + 1)) : ∃ bytes, Serves m d chunk bytes := by
  obtain ⟨rfl, hexact⟩ := Number.eq_ofCount_of_count? count
  have heach (name : String) : ∃ bytes, name ∈ m.names → ∀ s : Mounted, s.device = d →
      ((m.serve Mounted.device putDevice name).drain (.ofCount (c + 1))).outcome s =
        (.ok bytes, s) := by
    rcases m.reader_cases name with ⟨r, hr, -, hreader⟩ | ⟨habsent, -⟩
    · obtain ⟨bytes, hdrain⟩ := quiet.drain (τ := Mounted) (builtin r hr) bounds (Nat.succ_pos c)
        hexact
      refine ⟨bytes, fun _ s hs => ?_⟩
      subst hs
      rw [Diagnostics.serve, hreader]
      exact hdrain Mounted.device Mounted.putDevice s rfl rfl
    · exact ⟨[], fun hname => absurd hname habsent⟩
  choose bytes hbytes using heach
  exact ⟨bytes, hbytes⟩

/-- Removes what a run has mounted. -/
def removal : Process Mounted Unit := onMount (Diagnostics.teardown Gate.pass.host defaultRoot)

theorem outcome_removal (m : Diagnostics String) (p : Printed) (d : Device) :
    removal.outcome ⟨p, laid m.label m.names, mounted m, d⟩ =
      (.ok (), ⟨p, .bare, { m with directory := none }, d⟩) :=
  outcome_onMount (s := ⟨p, laid m.label m.names, mounted m, d⟩)
    (Diagnostics.teardown_laid (m := mounted m) rfl p.logs)

/-- On a tree of its own a run prints between the mount and its removal. -/
theorem outcome_printDevice (a : Arguments) {m : Diagnostics String}
    (unmounted : m.directory = none)
    (p : Printed) (d : Device) :
    (printDevice a).outcome ⟨p, .bare, m, d⟩ =
      ((printMounted a (place m.label)).always removal).outcome
        ⟨p, laid m.label m.names, mounted m, d⟩ := by
  have hinit : (onMount (Diagnostics.init Gate.pass.host id defaultRoot)).outcome
      ⟨p, .bare, m, d⟩ = (.ok (place m.label), ⟨p, laid m.label m.names, mounted m, d⟩) :=
    outcome_onMount (s := ⟨p, .bare, m, d⟩) (Diagnostics.init_bare unmounted p.logs)
  rw [printDevice, Effect.outcome_bind_ok (Effect.outcome_get _)]
  exact Effect.outcome_bind_ok hinit _

theorem outcome_printMounted {a : Arguments} (entries : a.list = false) {m : Diagnostics String}
    {d : Device} {bytes : String → Bytes} (serves : Serves m d a.chunk bytes) (p : Printed) :
    (printMounted a (place m.label)).outcome ⟨p, laid m.label m.names, mounted m, d⟩ =
      (.ok (exitCode m.names (wanted a m)), ⟨p.andThen (printout m.names (wanted a m)
        (shown (1 < (wanted a m).length) (place m.label) fun name => [Text.decode (bytes name)])),
        laid m.label m.names, mounted m, d⟩) := by
  rw [printMounted, Effect.outcome_bind_ok (Effect.outcome_get _), entries,
    if_neg Bool.false_ne_true]
  exact outcome_printEntries _ serves (wanted a m)
    (s := ⟨p, laid m.label m.names, mounted m, d⟩) ⟨rfl, rfl, rfl⟩

/-- The reports that a run can print. -/
def registered (a : Arguments) : List String := Report.names (Report.builtin a.debug)

/-- The names that a run asks for. -/
def requested (a : Arguments) : List String :=
  if a.all then registered a else if a.reports.isEmpty then ["name"] else a.reports

/-- The device of a snapshot file. -/
def loadFile (o : Outside) (source : String) : Except Failure Device := do
  let text ← o.readFile source
  let document ← o.parse text
  Snapshot.load document source

variable {o : Outside}

theorem loadFile_ok {source : String} {d : Device} (loaded : loadFile o source = .ok d) :
    ∃ text document, o.readFile source = .ok text ∧ o.parse text = .ok document ∧
      Snapshot.load document source = .ok d := by
  obtain ⟨text, htext, hrest⟩ := Except.exists_of_bind_ok loaded
  obtain ⟨document, hdocument, hload⟩ := Except.exists_of_bind_ok hrest
  exact ⟨text, document, htext, hdocument, hload⟩

/-- A run that has loaded its device mounts it on a tree of its own and prints. -/
theorem run_eq {a : Arguments} (print : a.help = false) {source : String}
    (given : a.source? = some source) {d : Device} (loaded : loadFile o source = .ok d)
    {m : Diagnostics String} (created : Diagnostics.create o.machine d (config a) = .ok m) :
    run o a = inFreshTree d m (printDevice a) := by
  obtain ⟨text, document, htext, hdocument, hload⟩ := loadFile_ok loaded
  apply Effect.ext_outcome
  intro p
  rw [run, print, if_neg Bool.false_ne_true, given]
  dsimp only
  rw [htext, Effect.outcome_bind_ok (Process.outcome_ok text p), hdocument,
    Effect.outcome_bind_ok (Process.outcome_ok document p), hload,
    Effect.outcome_bind_ok (Process.outcome_ok d p), created,
    Effect.outcome_bind_ok (Process.outcome_ok m p)]

/-- A document that is silent about the architecture gets that of the machine, and all else as it
would on another one. -/
theorem ofValue_silent {v : Value} (silent : (v.field "architecture").string? = none)
    (machine other : String) :
    Settings.ofValue machine v = { Settings.ofValue other v with architecture := machine } := by
  rw [Settings.ofValue, Settings.ofValue, Value.stringD, silent]
  rfl

/-- The settings of a run. -/
theorem resolve_config (machine : String) (a : Arguments) :
    Settings.resolve machine (config a) =
      .ok { Settings.defaults with debug := a.debug, architecture := machine } := by
  have hkept : ¬ Settings.defaults.bufferCapacity - Settings.defaults.sizeLimit <
      Settings.margin := by decide +kernel
  have hvalues (debug : Bool) :
      Settings.ofValue machine (Settings.schema.normalized (.record [("debug", .bool debug)])) =
        { Settings.defaults with debug, architecture := machine } := by
    have hsilent : ((Settings.schema.normalized (.record [("debug", .bool debug)])).field
        "architecture").string? = none := by cases debug <;> decide +kernel
    have hdefaults : Settings.ofValue "x64" (Settings.schema.normalized
        (.record [("debug", .bool debug)])) = { Settings.defaults with debug } := by
      cases debug <;> decide +kernel
    rw [ofValue_silent hsilent machine "x64", hdefaults]
  rw [config]
  cases a.debug with
  | false => exact Settings.resolve_of_validate rfl (hvalues false) hkept
  | true => exact Settings.resolve_of_validate rfl (hvalues true) hkept

/-- Every device can be mounted by a run, with the built-in reports. -/
theorem exists_created (machine : String) (a : Arguments) (d : Device) :
    ∃ m : Diagnostics String, Diagnostics.create machine d (config a) = .ok m ∧
      m.label = d.label ∧ m.directory = none ∧ m.reports = Report.builtin a.debug ∧
      Settings.resolve machine (config a) = .ok m.settings := by
  have hdistinct : (Report.names (Report.builtin a.debug)).Nodup := by
    cases a.debug <;> decide
  obtain ⟨m, hcreated, hreports⟩ := Diagnostics.exists_of_distinct d (resolve_config machine a)
    (show (Report.names ((none : Option (List Report)).getD _)).Nodup from hdistinct)
  obtain ⟨hlabel, hdirectory⟩ := Diagnostics.fresh_of_create hcreated
  exact ⟨m, hcreated, hlabel, hdirectory, hreports, (Diagnostics.create_ok hcreated).1⟩

/-- The run that asks for one name alone. -/
def alone (a : Arguments) (name : String) : Arguments := { a with all := false, reports := [name] }

/-- What a run prints, when each entry drains to some bytes. -/
theorem outcome_run {a : Arguments} (print : a.help = false) (entries : a.list = false)
    {source : String} (given : a.source? = some source) {d : Device}
    (loaded : loadFile o source = .ok d) {m : Diagnostics String}
    (created : Diagnostics.create o.machine d (config a) = .ok m) (names : m.names = registered a)
    {bytes : String → Bytes} (serves : Serves m d a.chunk bytes) (p : Printed) :
    (run o a).outcome p =
      (.ok (exitCode (registered a) (requested a)),
        p.andThen (printout (registered a) (requested a)
          (shown (1 < (requested a).length) (place d.label) fun name =>
            [Text.decode (bytes name)]))) := by
  obtain ⟨hlabel, hunmounted⟩ := Diagnostics.fresh_of_create created
  have hwanted : wanted a m = requested a := by
    rw [wanted, names, requested]
  have hprint := (outcome_printDevice a hunmounted p d).trans
    (Process.always_ok (outcome_printMounted entries serves p) (outcome_removal m _ d))
  rw [hwanted, names, hlabel] at hprint
  rw [run_eq print given loaded created, inFreshTree, Effect.outcome_ofOutcome]
  exact congrArg (fun r => (r.1, r.2.printed)) hprint

/-- What a run prints depends on its arguments only through the names that it asks for. -/
theorem inFreshTree_congr {a b : Arguments} {m : Diagnostics String}
    (unmounted : m.directory = none) (lists : a.list = b.list) (chunk : a.chunk = b.chunk)
    (names : wanted a m = wanted b m) (d : Device) :
    inFreshTree d m (printDevice a) = inFreshTree d m (printDevice b) := by
  have hprint (p : Printed) :
      (printMounted a (place m.label)).outcome ⟨p, laid m.label m.names, mounted m, d⟩ =
        (printMounted b (place m.label)).outcome ⟨p, laid m.label m.names, mounted m, d⟩ := by
    have hmounted : wanted a (mounted m) = wanted b (mounted m) := names
    rw [printMounted, printMounted, Effect.outcome_bind_ok (Effect.outcome_get _),
      Effect.outcome_bind_ok (Effect.outcome_get _), lists, chunk]
    dsimp only
    rw [hmounted]
  apply Effect.ext_outcome
  intro p
  have hsame : (printDevice a).outcome ⟨p, .bare, m, d⟩ =
      (printDevice b).outcome ⟨p, .bare, m, d⟩ := by
    rw [outcome_printDevice a unmounted, outcome_printDevice b unmounted, Process.always,
      Process.always, Effect.outcome_ofOutcome, Effect.outcome_ofOutcome, hprint]
  rw [inFreshTree, inFreshTree, Effect.outcome_ofOutcome, Effect.outcome_ofOutcome]
  exact congrArg (fun r => (r.1, r.2.printed)) hsame

/-- A run that asks for all reports asks for them by name, whatever other names are given. -/
theorem run_all (o : Outside) (a : Arguments) :
    run o { a with all := true } = run o { a with all := false, reports := registered a } := by
  have hdevice (d : Device) (m : Diagnostics String)
      (created : Diagnostics.create o.machine d (config a) = .ok m) :
      inFreshTree d m (printDevice { a with all := true }) =
        inFreshTree d m (printDevice { a with all := false, reports := registered a }) := by
    obtain ⟨m', hcreated, -, hunmounted, hreports, -⟩ := exists_created o.machine a d
    obtain rfl : m = m' := Except.ok.inj (created.symm.trans hcreated)
    refine inFreshTree_congr (a := { a with all := true })
      (b := { a with all := false, reports := registered a }) hunmounted rfl rfl ?_ d
    have hnames : m.names = registered a := congrArg Report.names hreports
    have hsome : (registered a).isEmpty = false := by
      rw [registered]
      cases a.debug <;> rfl
    simp [wanted, hnames, hsome]
  rw [run, run]
  by_cases hhelp : a.help = true
  · rw [if_pos hhelp, if_pos hhelp]
  · have hfirst : Arguments.source? { a with all := true } = a.source? := rfl
    have hsecond : Arguments.source? { a with all := false, reports := registered a } = a.source? :=
      rfl
    rw [if_neg hhelp, if_neg hhelp, hfirst, hsecond]
    rcases a.source? with _ | source
    · rfl
    · refine Process.bind_ofExcept_congr fun text _ => ?_
      refine Process.bind_ofExcept_congr fun document _ => ?_
      refine Process.bind_ofExcept_congr fun d _ => ?_
      exact Process.bind_ofExcept_congr fun m created => hdevice d m created

/-- A run that asks for names prints, for each name up to the first that is not registered, what a
run prints that asks for that name alone, under a heading where it asks for several. It ends with
the code of an unknown name or of none. A run that asks for all reports asks for them by name. What
parses the snapshot may be any function at all. -/
theorem run_composes (o : Outside) (a : Arguments) (print : a.help = false)
    (entries : a.list = false) (source : String) (given : a.source? = some source) (d : Device)
    (loaded : loadFile o source = .ok d) (c : Nat) (chunk : a.chunk.count? = some (c + 1))
    (p : Printed) :
    (run o a).outcome p =
        (.ok (exitCode (registered a) (requested a)),
          p.andThen (printout (registered a) (requested a)
            (shown (1 < (requested a).length) (place d.label) fun name =>
              ((run o (alone a name)).outcome {}).2.writes))) ∧
      run o { a with all := true } = run o { a with all := false, reports := registered a } := by
  obtain ⟨m, hcreated, hlabel, -, hreports, hresolve⟩ := exists_created o.machine a d
  have hnames : m.names = registered a := by
    rw [Diagnostics.names, hreports, registered]
  have hbuiltin : ∀ r ∈ m.reports, r ∈ Report.builtin true := by
    intro r hr
    rw [hreports] at hr
    exact Report.builtin_subset a.debug r hr
  obtain ⟨text, document, -, -, hload⟩ := loadFile_ok loaded
  obtain ⟨limit, capacity, hbounds, -⟩ := Settings.bounds_of_resolve hresolve
  obtain ⟨bytes, hserves⟩ := exists_serves (Snapshot.quiet_of_load hload) hbuiltin hbounds chunk
  constructor
  · have halone : ∀ name ∈ registered a,
        ((run o (alone a name)).outcome {}).2.writes = [Text.decode (bytes name)] := by
      intro name hname
      have hrun := outcome_run (a := alone a name) print entries given loaded hcreated hnames
        hserves {}
      have hprinted : printout (registered a) [name] (shown false (place d.label) fun name =>
          [Text.decode (bytes name)]) = ⟨[Text.decode (bytes name)], []⟩ := by
        rw [printout_cons_of_mem hname]
        rfl
      rw [hrun]
      exact congrArg Printed.writes hprinted
    have hsame : printout (registered a) (requested a) (shown (1 < (requested a).length)
        (place d.label) fun name => [Text.decode (bytes name)]) =
      printout (registered a) (requested a) (shown (1 < (requested a).length) (place d.label)
        fun name => ((run o (alone a name)).outcome {}).2.writes) := by
      refine printout_congr fun name hname => ?_
      rw [shown, shown, halone name hname]
    rw [outcome_run print entries given loaded hcreated hnames hserves p, hsame]
  · exact run_all o a

/-- Where the snapshot of one device can be read. -/
def shelf (source : String) : Except Failure String :=
  if source = "gfx.yaml" then .ok "index: 0\ndriverName: gfx\nbusId: pci\n"
  else .error (.plain ("no such file: " ++ source))

/-- A machine on which that file is parsed. -/
def desk : Outside := ⟨shelf, Yaml.read, "x64"⟩

/-- A name is asked for again behind one that is unknown. -/
def twice : Arguments := { device := some "gfx.yaml", reports := ["name", "nope", "name"] }

theorem run_twice :
    ∃ d, twice.help = false ∧ twice.list = false ∧ twice.source? = some "gfx.yaml" ∧
      loadFile desk "gfx.yaml" = .ok d ∧ twice.chunk.count? = some (1023 + 1) ∧
      (run desk twice).outcome {} = (.ok 1, ⟨["==> /dri/0/name <==\n", "gfx pci\n"],
        ["[devinfo-cat] No such report: nope"]⟩) := by
  have hlabel : (loadFile desk "gfx.yaml").toOption.map Device.label = some "0" := by
    decide +kernel
  have hcount : twice.chunk.count? = some (1023 + 1) := by decide +kernel
  rcases hload : loadFile desk "gfx.yaml" with e | d
  · rw [hload] at hlabel
    cases hlabel
  · rw [hload] at hlabel
    have hd : d.label = "0" := Option.some.inj hlabel
    have hrun := (run_composes desk twice rfl rfl "gfx.yaml" rfl d hload 1023 hcount {}).1
    have hname : ((run desk (alone twice "name")).outcome {}).2.writes = ["gfx pci\n"] := by
      decide +kernel
    have hheading : heading (join (place "0") "name") = "==> /dri/0/name <==\n" := by
      decide +kernel
    have hprinted : printout (registered twice) (requested twice)
        (shown (1 < (requested twice).length) (place d.label) fun name =>
          ((run desk (alone twice name)).outcome {}).2.writes) =
        ⟨["==> /dri/0/name <==\n", "gfx pci\n"], ["[devinfo-cat] No such report: nope"]⟩ := by
      have hnames : requested twice = ["name", "nope", "name"] := rfl
      rw [hnames, printout_cons_of_mem (by decide), printout_cons_of_notMem (by decide), shown,
        hname, hd, hheading]
      rfl
    refine ⟨d, rfl, rfl, rfl, rfl, hcount, ?_⟩
    rw [hrun, hprinted]
    rfl

end Cat

end DeviceReports
