import DeviceReports.Report.Accounting
import DeviceReports.Report.BufferPool
import DeviceReports.Report.Clients
import DeviceReports.Report.Identity
import DeviceReports.Report.Mappings
import DeviceReports.Report.MemoryAreas
import DeviceReports.Report.NamedObjects
import DeviceReports.Report.ObjectTotals
import DeviceReports.Report.Queues
import DeviceReports.Report.VirtualAreas

/-!
# The built-in reports

The reports of every device in the order in which they are registered. The report on virtual
areas is for debugging and comes last.
-/

set_option autoImplicit false

namespace DeviceReports.Report

def core : List Report :=
  [Identity.report, MemoryAreas.report, Mappings.report, Clients.report, Queues.report,
    BufferPool.report, Accounting.report, NamedObjects.report, ObjectTotals.report]

def debugging : List Report := [VirtualAreas.report]

def builtin (debug : Bool) : List Report := if debug then core ++ debugging else core

def names (reports : List Report) : List String := reports.map (·.name)

end DeviceReports.Report
