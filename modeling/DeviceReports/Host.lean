import DeviceReports.Action

/-!
# Hosts

A host keeps the directories and entries that device diagnostics are mounted as. It creates
and removes them one at a time, may refuse to create or fail at any call, and takes down
lines for its operator.
-/

set_option autoImplicit false

namespace DeviceReports

/-- A call that a host receives, with directories known by handles `δ`. -/
inductive Host.Call (δ : Type) where
  | createDirectory (name : String) (parent : δ)
  | createEntry (name : String) (directory : δ)
  | removeEntry (name : String) (directory : δ)
  | removeDirectory (name : String) (parent : δ)
deriving DecidableEq, Repr

/-- A host over a state `σ`, with directories known by handles `δ` and entries that hold a
reference `ρ` to what is read through them. -/
structure Host (σ δ ρ : Type) where
  /-- The new directory, or nothing when the host refuses. -/
  createDirectory : String → δ → Action σ (Option δ)
  /-- Whether the entry was created. -/
  createEntry : String → δ → ρ → Action σ Bool
  removeEntry : String → δ → Action σ Unit
  removeDirectory : String → δ → Action σ Unit
  pathOf : δ → String
  note : String → σ → σ

/-- Takes down a line for the operator. -/
def Host.log {σ δ ρ : Type} (h : Host σ δ ρ) (line : String) : Action σ Unit := modify (h.note line)

end DeviceReports
