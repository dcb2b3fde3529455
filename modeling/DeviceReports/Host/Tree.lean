import DeviceReports.Report.Window

/-!
# Entry trees

A tree knows its directories and entries by their paths. A name may contain the separator, so
a path need not have a directory above it. Removing an entry or a directory that is not there
changes nothing.

Names are strings of characters. As texts in 16-bit units they hold no half of a pair alone; the
order of a listing is that of their units.
-/

set_option autoImplicit false

namespace DeviceReports

/-- Directories and entries by path, in the order in which they were created. -/
structure EntryTree (ρ : Type) where
  root : String
  directories : List String
  entries : List (String × ρ)

inductive EntryKind where
  | file
  | directory
deriving DecidableEq, Repr

def EntryKind.word : EntryKind → String
  | .file => "file"
  | .directory => "directory"

/-- A child of a directory. -/
structure Listed where
  name : String
  kind : EntryKind
deriving DecidableEq, Repr

namespace EntryTree

variable {ρ σ : Type}

def defaultRoot : String := "/dri"

def new (root : String) : EntryTree ρ := ⟨root, [root], []⟩

/-- The path of a name in a directory; the topmost directory ends in its own separator. -/
def join (parent name : String) : String :=
  if parent = "/" then "/" ++ name else parent ++ "/" ++ name

def isDirectory (t : EntryTree ρ) (path : String) : Bool := t.directories.contains path

def content? (t : EntryTree ρ) (path : String) : Option ρ :=
  (t.entries.find? (·.1 == path)).map (·.2)

def exists? (t : EntryTree ρ) (path : String) : Bool :=
  t.isDirectory path || t.entries.any (·.1 == path)

/-- A path that may be created: its directory is there and nothing stands at it. -/
def admits (t : EntryTree ρ) (name parent : String) : Bool :=
  t.isDirectory parent && !t.exists? (join parent name)

def addDirectory (t : EntryTree ρ) (name parent : String) : Option (String × EntryTree ρ) :=
  if t.admits name parent then
    some (join parent name, { t with directories := t.directories ++ [join parent name] })
  else none

def addEntry (t : EntryTree ρ) (name parent : String) (content : ρ) : Option (EntryTree ρ) :=
  if t.admits name parent then
    some { t with entries := t.entries ++ [(join parent name, content)] }
  else none

def dropEntry (t : EntryTree ρ) (path : String) : EntryTree ρ :=
  { t with entries := t.entries.filter (·.1 != path) }

def dropDirectory (t : EntryTree ρ) (path : String) : EntryTree ρ :=
  { t with directories := t.directories.filter (· != path) }

/-- The name under which a path stands directly in a directory. -/
def childName? (parent path : String) : Option String :=
  let top := (join parent "").toList
  if top.isPrefixOf path.toList then
    let rest := path.toList.drop top.length
    if rest.isEmpty ∨ rest.contains '/' then none else some (String.ofList rest)
  else none

/-- The children of a directory: the directories first, each in the order of creation. -/
def children (t : EntryTree ρ) (path : String) : List Listed :=
  (t.directories.filterMap fun p => (childName? path p).map fun n => ⟨n, .directory⟩)
    ++ t.entries.filterMap fun e => (childName? path e.1).map fun n => ⟨n, .file⟩

/-- Whether a child is listed no later than another: by the units of their names. -/
def inOrder (a b : Listed) : Bool := !Text.before (Text.ofString b.name) (Text.ofString a.name)

/-- The children of a directory, sorted by name. -/
def list (t : EntryTree ρ) (path : String) : List Listed := (t.children path).mergeSort inOrder

/-- What is read through the entry at a path. -/
def content (t : EntryTree ρ) (path : String) : Except Failure ρ :=
  match t.content? path with
  | some content => .ok content
  | none => .error (.missingResource "Entry" path)

/-- A window of the entry at a path. -/
def read (t : EntryTree ρ) (serve : ρ → Reader σ) (path : String) (offset length : Number) :
    Process σ Chunk := do
  (serve (← Process.ofExcept (t.content path))).read offset length

/-- The whole text of the entry at a path. -/
def text (t : EntryTree ρ) (serve : ρ → Reader σ) (path : String) (chunkSize : Number) :
    Process σ String := do
  let bytes ← (serve (← Process.ofExcept (t.content path))).drain chunkSize
  pure (Text.decode bytes)

end EntryTree

end DeviceReports
