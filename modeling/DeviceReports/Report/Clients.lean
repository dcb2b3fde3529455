import DeviceReports.Report

/-!
# The client report

One row per client session.
-/

set_option autoImplicit false

namespace DeviceReports.Report.Clients

open Column

def header : Piece := "a dev   pid   uid      magic     ioctls\n\n"

def row (c : Client) : Piece :=
  Piece.joined [flag c.authenticated "y" "n", " ", decimal c.minorIndex 3, " ", decimal c.pid 5,
    " ", decimal c.uid 5, " ", decimal c.magic 10, " ", decimal c.ioctlCount 10, "\n"]

def report : Report := ofPieces "clients" true fun _ d => header :: d.clients.map row

end DeviceReports.Report.Clients
