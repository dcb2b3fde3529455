import DeviceReports.Report

/-!
# The named object report

One row per registered object. Once the buffer has passed its limit, the remaining objects
are left out.
-/

set_option autoImplicit false

namespace DeviceReports.Report.NamedObjects

open Column

def header : Piece := "  name     size handles refcount\n"

def row (o : NamedObject) : Piece :=
  Piece.joined [decimal o.name 6, decimal o.size 9, decimal o.handleCount.number 8,
    decimal o.refCount.number 9, "\n"]

/-- Prints the rows for which the buffer has room under its limit. -/
def printRows : List NamedObject → Rendering Device Unit
  | [] => pure ()
  | o :: rest => do
    let out ← Rendering.output
    if out.overflowed then pure () else Rendering.piece (row o)
    printRows rest

def report : Report where
  name := "gem_names"
  requiresLock := true
  generate _ := do
    Rendering.piece header
    let d ← Rendering.state
    printRows d.objects

end DeviceReports.Report.NamedObjects
