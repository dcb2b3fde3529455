import DeviceReports.Report

/-!
# The object summary report

The totals over all named objects, one line for each.
-/

set_option autoImplicit false

namespace DeviceReports.Report.ObjectTotals

def line (n : Number) (what : String) : Piece := n.text ++ " " ++ what ++ "\n"

def pieces (s : ObjectStats) : List Piece :=
  [line s.objectCount.number "objects", line s.objectMemory.number "object bytes",
    line s.pinCount.number "pinned", line s.pinMemory.number "pin bytes",
    line s.gttMemory.number "gtt bytes", line s.gttTotal "gtt total"]

def report : Report := ofPieces "gem_objects" false fun _ d => pieces d.objectStats

end DeviceReports.Report.ObjectTotals
