import DeviceReports.Host
import DeviceReports.Report.Builtin
import DeviceReports.Session

/-!
# Device diagnostics

The reports of one device, mounted on a host as a directory named after the device's index.
Mounting registers every report or none: when the host does not create an entry, those made
before it are removed again, latest first, and then the directory. Each read renders the
report anew; a session renders it once.
-/

set_option autoImplicit false

namespace DeviceReports

open Text (Bytes)

/-- The first name that stands in a list a second time. -/
def firstRepeat? (seen : List String) : List String → Option String
  | [] => none
  | name :: rest => if name ∈ seen then some name else firstRepeat? (name :: seen) rest

theorem firstRepeat?_none {seen names : List String} (h : firstRepeat? seen names = none) :
    names.Nodup ∧ ∀ name ∈ names, name ∉ seen := by
  induction names generalizing seen with
  | nil => simp
  | cons name rest ih =>
    by_cases hn : name ∈ seen
    · simp [firstRepeat?, hn] at h
    · obtain ⟨distinct, fresh⟩ := ih (by simpa [firstRepeat?, hn] using h)
      refine ⟨List.nodup_cons.mpr ⟨fun hm => fresh name hm (by simp), distinct⟩, ?_⟩
      intro other ho
      rcases List.mem_cons.mp ho with rfl | ho
      · exact hn
      · exact fun hs => fresh other ho (by simp [hs])

/-- The diagnostics of one device: `label` is its index, and `directory` is where they are
mounted. -/
structure Diagnostics (δ : Type) where
  label : String
  settings : Settings
  reports : List Report
  directory : Option δ := none
  names_nodup : (Report.names reports).Nodup

namespace Diagnostics

variable {σ δ ρ : Type}

/-- Diagnostics under a settings document on a machine of some architecture, with the built-in
reports or a set in their place. -/
def create (machine : String) (d : Device) (config : Value)
    (replaced : Option (List Report) := none) : Except Failure (Diagnostics δ) := do
  let settings ← Settings.resolve machine config
  let reports := replaced.getD (Report.builtin settings.debug)
  match h : firstRepeat? [] (Report.names reports) with
  | some name => .error (.duplicateReport name)
  | none => .ok { label := d.label, settings, reports, names_nodup := (firstRepeat?_none h).1 }

def names (m : Diagnostics δ) : List String := Report.names m.reports

def isRegistered (m : Diagnostics δ) : Bool := m.directory.isSome

def directoryName (m : Diagnostics δ) : String := m.label

def note (line : String) : String := "[DeviceDiagnostics] " ++ line

/-- How a note goes on when a failure is known. -/
def because (cause : Option Cause) : String :=
  match cause with
  | some c => ": " ++ c.message
  | none => ""

/-- Where a mount takes place: the directory made for it, and the name, parent and path of that
directory. -/
structure MountPoint (δ : Type) where
  directory : δ
  name : String
  parent : δ
  path : String

/-- Runs one removal of a rollback. Its failure is noted, and the rollback goes on. -/
def removeOrNote (h : Host σ δ ρ) (path : String) (removal : Action σ Unit) : Action σ Unit := do
  match ← removal.attempt with
  | .ok () => pure ()
  | .error e => h.log (note ("Rollback could not remove " ++ path ++ ": " ++ e.message))

/-- Removes entries of a mount point one by one. -/
def removeEntries (h : Host σ δ ρ) (p : MountPoint δ) : List String → Action σ Unit
  | [] => pure ()
  | name :: rest => do
    removeOrNote h (p.path ++ "/" ++ name) (h.removeEntry name p.directory)
    removeEntries h p rest

/-- Gives up a mount at an entry: removes the entries made, latest first, and the directory. -/
def abandon (h : Host σ δ ρ) (p : MountPoint δ) (name : String) (made : List String)
    (cause : Option Cause) : Action σ Unit := do
  removeEntries h p made
  removeOrNote h p.path (h.removeDirectory p.name p.parent)
  h.log (note ("Cannot create " ++ p.path ++ "/" ++ name ++ because cause ++ "; removed "
    ++ toString made.length ++ " registered report(s)"))
  Action.fail (.registration p.path name made cause)

/-- Creates the entries of the remaining names, after those in `made`, latest first. -/
def createEntries (h : Host σ δ ρ) (entry : String → ρ) (p : MountPoint δ) :
    List String → List String → Action σ Unit
  | _, [] => pure ()
  | made, name :: rest => do
    match ← (h.createEntry name p.directory (entry name)).attempt with
    | .ok true => createEntries h entry p (name :: made) rest
    | .ok false => abandon h p name made none
    | .error e => abandon h p name made (some e.toCause)

/-- Gives up a mount at its directory. -/
def abandonDirectory {α : Type} (h : Host σ δ ρ) (path : String) (cause : Option Cause) :
    Action σ α := do
  h.log (note ("Cannot create " ++ path ++ because cause))
  Action.fail (.namespaceCreation path cause)

/-- Creates the directory of the diagnostics under another one, and the entries in it. -/
def mount (m : Diagnostics δ) (h : Host σ δ ρ) (entry : String → ρ) (parent : δ) : Action σ δ := do
  let path := h.pathOf parent ++ "/" ++ m.directoryName
  match ← (h.createDirectory m.directoryName parent).attempt with
  | .ok (some directory) =>
    createEntries h entry ⟨directory, m.directoryName, parent, path⟩ [] m.names
    pure directory
  | .ok none => abandonDirectory h path none
  | .error e => abandonDirectory h path (some e.toCause)

/-- Runs an action on the host beside some diagnostics. -/
def onHost {α : Type} (act : Action σ α) : Action (Diagnostics δ × σ) α :=
  act.focus Prod.snd fun (m, _) s => (m, s)

/-- Takes down where the diagnostics are mounted. -/
def settle (directory : Option δ) : Action (Diagnostics δ × σ) Unit :=
  modify fun (m, s) => ({ m with directory }, s)

/-- Mounts the diagnostics under a directory; mounted ones stay as they are. They are registered
only once every entry is created. -/
def init (h : Host σ δ ρ) (entry : String → ρ) (parent : δ) : Action (Diagnostics δ × σ) δ := do
  let (m, _) ← get
  match m.directory with
  | some directory => pure directory
  | none =>
    let directory ← onHost (m.mount h entry parent)
    settle (some directory)
    pure directory

/-- Removes the entries of the given names from a directory, up to the first failure. -/
def dismount (h : Host σ δ ρ) (directory : δ) : List String → Action σ Unit
  | [] => pure ()
  | name :: rest => do
    h.removeEntry name directory
    dismount h directory rest

/-- Removes every entry and then the directory. Diagnostics that are not mounted stay so, and
those whose removal fails stay registered. -/
def teardown (h : Host σ δ ρ) (parent : δ) : Action (Diagnostics δ × σ) Unit := do
  let (m, _) ← get
  match m.directory with
  | none => pure ()
  | some directory =>
    onHost (dismount h directory m.names)
    onHost (h.removeDirectory m.directoryName parent)
    settle none

def report (m : Diagnostics δ) (name : String) : Except Failure Report :=
  match m.reports.find? (·.name == name) with
  | some r => .ok r
  | none => .error (.reportNotFound name m.label)

/-- The rendering of a report, under the device's lock where the report asks for it. -/
def rendering (m : Diagnostics δ) (r : Report) : Rendering Device Unit := r.rendering m.settings

/-- A reader for a report of the device. -/
def reader (m : Diagnostics δ) (name : String) : Except Failure (Reader Device) := do
  let r ← m.report name
  pure (Reading.reader m.settings.bounds (m.rendering r))

/-- What is read through the mounted entry of a name, where a device is part of a larger state:
the report of that name. -/
def serve {τ : Type} (m : Diagnostics δ) (view : τ → Device) (put : τ → Device → τ)
    (name : String) : Reader τ :=
  match m.reader name with
  | .ok r => r.within view put
  | .error e => ⟨fun _ _ => Process.fail e, 0⟩

/-- A window of a report, rendered for this read alone. -/
def read (m : Diagnostics δ) (name : String) (offset length : Number) : Process Device Chunk := do
  (← Process.ofExcept (m.reader name)).read offset length

/-- A whole report, read window by window. -/
def readAll (m : Diagnostics δ) (name : String) (chunkSize : Number := Reader.defaultChunk) :
    Process Device Bytes := do
  (← Process.ofExcept (m.reader name)).drain chunkSize

/-- Renders a report once, to be read in a session. -/
def openSession (m : Diagnostics δ) (name : String) : Process Device Session := do
  let r ← Process.ofExcept (m.report name)
  let out ← Rendering.fresh m.settings.bounds (m.rendering r)
  pure (Session.ofBuffer name out)

end Diagnostics

end DeviceReports
