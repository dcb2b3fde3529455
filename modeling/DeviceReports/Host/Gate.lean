import DeviceReports.Host
import DeviceReports.Host.Tree

/-!
# Gated trees

A gate stands in front of an entry tree. It sees every call, the removals that a recursive
removal makes among them, and lets it pass, refuses it or makes it fail. A gated tree is a
host.
-/

set_option autoImplicit false

namespace DeviceReports

/-- A call that a gate judges; directories are known by their paths. -/
abbrev HostCall := Host.Call String

inductive Verdict where
  | pass
  | refuse
  | fail (f : Failure)

/-- A gate with a memory `γ` of its own. -/
structure Gate (γ : Type) where
  judge : HostCall → γ → Verdict × γ
  note : String → γ → γ

namespace Gate

variable {γ ρ α : Type}

/-- A gate that lets every call pass and keeps the operator's lines. -/
def pass : Gate (List String) where
  judge _ lines := (.pass, lines)
  note line lines := lines ++ [line]

/-- Runs a call that passes the gate; a refused one answers `refused` and does nothing. -/
def through (g : Gate γ) (call : HostCall) (refused : α) (act : Action (γ × EntryTree ρ) α) :
    Action (γ × EntryTree ρ) α :=
  Effect.ofOutcome fun (memory, tree) =>
    match g.judge call memory with
    | (.pass, memory) => act.outcome (memory, tree)
    | (.refuse, memory) => (.ok refused, (memory, tree))
    | (.fail f, memory) => (.error f, (memory, tree))

def tree : Action (γ × EntryTree ρ) (EntryTree ρ) := do pure (← get).2

def onTree (change : EntryTree ρ → EntryTree ρ) : Action (γ × EntryTree ρ) Unit :=
  modify fun (memory, t) => (memory, change t)

def createDirectory (g : Gate γ) (name parent : String) :
    Action (γ × EntryTree ρ) (Option String) :=
  g.through (.createDirectory name parent) none do
    match (← tree).addDirectory name parent with
    | some (path, t) =>
      onTree fun _ => t
      pure (some path)
    | none => pure none

def createEntry (g : Gate γ) (name parent : String) (content : ρ) :
    Action (γ × EntryTree ρ) Bool :=
  g.through (.createEntry name parent) false do
    match (← tree).addEntry name parent content with
    | some t =>
      onTree fun _ => t
      pure true
    | none => pure false

def removeEntry (g : Gate γ) (name parent : String) : Action (γ × EntryTree ρ) Unit :=
  g.through (.removeEntry name parent) () (onTree (·.dropEntry (EntryTree.join parent name)))

/-- Removes the listed children of a directory in order. -/
def removeChildren (g : Gate γ) (removeDirectory : String → String → Action (γ × EntryTree ρ) Unit)
    (path : String) : List Listed → Action (γ × EntryTree ρ) Unit
  | [] => pure ()
  | c :: rest => do
    match c.kind with
    | .directory => removeDirectory c.name path
    | .file => g.removeEntry c.name path
    removeChildren g removeDirectory path rest

/-- Removes a directory after what it lists, down to `depth` levels. The root stays. -/
def removeLevels (g : Gate γ) : Nat → String → String → Action (γ × EntryTree ρ) Unit
  | 0, _, _ => pure ()
  | depth + 1, name, parent =>
    g.through (.removeDirectory name parent) () do
      let path := EntryTree.join parent name
      let t ← tree
      if path = t.root then pure ()
      else
        g.removeChildren (removeLevels g depth) path (t.list path)
        onTree (·.dropDirectory path)

/-- Removes a directory with all below it. Each level is a directory of the tree with a longer
path than the one above, so there are no more levels than directories. -/
def removeDirectory (g : Gate γ) (name parent : String) : Action (γ × EntryTree ρ) Unit := do
  removeLevels g ((← tree).directories.length + 1) name parent

/-- The gated tree as a host. -/
def host (g : Gate γ) : Host (γ × EntryTree ρ) String ρ where
  createDirectory := g.createDirectory
  createEntry := g.createEntry
  removeEntry := g.removeEntry
  removeDirectory := g.removeDirectory
  pathOf path := path
  note line st := (g.note line st.1, st.2)

end Gate

end DeviceReports
