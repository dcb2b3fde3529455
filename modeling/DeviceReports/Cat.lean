import DeviceReports.Cat.Arguments
import DeviceReports.Device.Snapshot
import DeviceReports.Diagnostics
import DeviceReports.Host.Gate

/-!
# The cat command

The command loads a snapshot, mounts its reports on a tree of its own, and prints the entries
asked for as the tree serves them, in steps. What is mounted is removed again at the end. It
stops at the first name that has no entry.
-/

set_option autoImplicit false

namespace DeviceReports.Cat

def helpText : String :=
  "\ndevinfo-cat - Print diagnostic reports of a device snapshot\n\n"
    ++ "Usage: devinfo-cat --device <snapshot> [options]\n\n"
    ++ "Options:\n"
    ++ "  --device <path>       Device snapshot, JSON or YAML (required)\n"
    ++ "  --report <name,...>   Reports to print (default: name)\n"
    ++ "  --all                 Print every registered report\n"
    ++ "  --list                List the mounted report entries\n"
    ++ "  --chunk <bytes>       Read size per call (default: "
    ++ toString Reader.defaultChunk ++ ")\n"
    ++ "  --debug               Also register the vma report\n"
    ++ "  --help                Show this help message\n"

/-- What the command has written, and the lines it gave to the operator. -/
structure Printed where
  writes : List String := []
  logs : List String := []

/-- The state of a run: what is printed, the tree and the diagnostics mounted on it, and the
device. -/
structure Mounted where
  printed : Printed
  tree : EntryTree String
  diagnostics : Diagnostics String
  device : Device

namespace Mounted

def gated (s : Mounted) : List String × EntryTree String := (s.printed.logs, s.tree)

def putGated (s : Mounted) (g : List String × EntryTree String) : Mounted :=
  { s with printed := { s.printed with logs := g.1 }, tree := g.2 }

def putDevice (s : Mounted) (d : Device) : Mounted := { s with device := d }

/-- Runs an action of the diagnostics on the tree that they are mounted on. -/
def onMount {α : Type} (act : Action (Diagnostics String × List String × EntryTree String) α) :
    Process Mounted α :=
  (Process.ofAction act).focus (fun s => (s.diagnostics, s.gated))
    fun s (diagnostics, g) => { s.putGated g with diagnostics }

/-- An entry of the tree reads the report of its name. -/
def serve (s : Mounted) : String → Reader Mounted := s.diagnostics.serve device putDevice

def write (text : String) : Process Mounted Unit :=
  modify fun s => { s with printed := { s.printed with writes := s.printed.writes ++ [text] } }

def log (line : String) : Process Mounted Unit :=
  modify fun s => { s with printed := { s.printed with logs := s.printed.logs ++ [line] } }

end Mounted

open Mounted

/-- Lists the entries of a directory. -/
def printListing (directory : String) : List Listed → Process Mounted Unit
  | [] => pure ()
  | e :: rest => do
    write (directory ++ "/" ++ e.name ++ "\n")
    printListing directory rest

/-- Prints entries in order, each under a heading where there are several, up to the first
name without an entry. -/
def printEntries (directory : String) (headed : Bool) (chunk : Number) :
    List String → Process Mounted Nat
  | [] => pure 0
  | name :: rest => do
    let path := directory ++ "/" ++ name
    let s ← get
    if s.tree.exists? path then do
      if headed then write ("==> " ++ path ++ " <==\n")
      write (← s.tree.text s.serve path chunk)
      printEntries directory headed chunk rest
    else do
      log ("[devinfo-cat] No such report: " ++ name)
      pure 1

/-- The reports that are asked for. -/
def wanted (a : Arguments) (m : Diagnostics String) : List String :=
  if a.all then m.names else if a.reports.isEmpty then ["name"] else a.reports

/-- Prints what is asked for from a mounted directory. -/
def printMounted (a : Arguments) (directory : String) : Process Mounted Nat := do
  let s ← get
  if a.list then
    printListing directory (s.tree.list directory)
    pure 0
  else
    let names := wanted a s.diagnostics
    printEntries directory (1 < names.length) a.chunk names

/-- Mounts the reports, prints, and removes them again. -/
def printDevice (a : Arguments) : Process Mounted Nat := do
  let root := (← get).tree.root
  let directory ← onMount (Diagnostics.init Gate.pass.host id root)
  (printMounted a directory).always (onMount (Diagnostics.teardown Gate.pass.host root))

/-- Runs a process in a fresh tree and keeps what it printed. -/
def inFreshTree {α : Type} (d : Device) (m : Diagnostics String) (act : Process Mounted α) :
    Process Printed α :=
  Effect.ofOutcome fun printed =>
    let (r, s) := act.outcome ⟨printed, .new EntryTree.defaultRoot, m, d⟩
    (r, s.printed)

/-- The settings document of a run. -/
def config (a : Arguments) : Value := .record [("debug", .bool a.debug)]

/-- What a run gets from outside: the files, what parses them, and the architecture of the
machine. -/
structure Outside where
  readFile : String → Except Failure String
  parse : String → Except Failure Value
  machine : String

/-- Runs the command; the answer is its exit code. -/
def run (o : Outside) (a : Arguments) : Process Printed Nat := do
  if a.help then
    modify fun p => { p with writes := p.writes ++ [helpText] }
    pure 0
  else
    match a.source? with
    | none => Process.fail (.invalid "--device is required")
    | some source =>
      let text ← Process.ofExcept (o.readFile source)
      let document ← Process.ofExcept (o.parse text)
      let device ← Process.ofExcept (Snapshot.load document source)
      let m ← Process.ofExcept (Diagnostics.create o.machine device (config a))
      inFreshTree device m (printDevice a)

/-- What a whole run of the program leaves behind. -/
structure Exit where
  code : Nat
  stdout : String
  stderr : List String

/-- Runs the program: a run without a snapshot shows the help, and a failure is shown after
what was printed before it. A run without end leaves nothing behind. -/
def execute (o : Outside) (options : List String) : Option Exit :=
  let fatal (e : Failure) := "Fatal: " ++ e.message
  match Arguments.parse options with
  | .error e => some ⟨1, "", [fatal e]⟩
  | .ok a =>
    if a.source?.isNone && !a.help then some ⟨1, helpText ++ "\n", []⟩
    else
      let (r, printed) := (run o a).outcome {}
      let stdout := String.join printed.writes
      match r with
      | .ok code => some ⟨code, stdout, printed.logs⟩
      | .error (.failed e) => some ⟨1, stdout, printed.logs ++ [fatal e]⟩
      | .error .endless => none

end DeviceReports.Cat
