import DeviceReports.Report

/-!
# The identity report

One line: driver, bus and, once it is assigned, the unique name.
-/

set_option autoImplicit false

namespace DeviceReports.Report.Identity

/-- Driver and bus. -/
def place (d : Device) : String := d.driverName.display ++ " " ++ d.busId.display

def line (d : Device) : String :=
  match d.unique with
  | some u => if u = "" then place d ++ "\n" else place d ++ " " ++ u ++ "\n"
  | none => place d ++ "\n"

def report : Report := ofPieces "name" false fun _ d => [line d]

end DeviceReports.Report.Identity
