import DeviceReports.Device
import DeviceReports.Report.Window
import DeviceReports.Settings

/-!
# Reports

A report has a name and says how to render a device under given settings, and whether that
happens under the device's state lock.
-/

set_option autoImplicit false

namespace DeviceReports

structure Report where
  name : String
  requiresLock : Bool
  generate : Settings → Rendering Device Unit

def Settings.bounds (s : Settings) : Bounds := ⟨s.sizeLimit, s.bufferCapacity⟩

namespace Report

/-- A report whose pieces depend on the device as it stands and on the settings alone. -/
def ofPieces (name : String) (requiresLock : Bool)
    (pieces : Settings → Device → List Piece) : Report where
  name
  requiresLock
  generate s := do
    let d ← Rendering.state
    Rendering.printEach (pieces s d)

/-- The lock word of the device that is rendered. -/
def lockWord (st : Device × ReportBuffer) : Int32 := st.1.lockWord

def putLockWord (st : Device × ReportBuffer) (word : Int32) : Device × ReportBuffer :=
  (st.1.putLockWord word, st.2)

/-- Renders under the device's state lock where the report asks for it. -/
def rendering (r : Report) (s : Settings) : Rendering Device Unit :=
  if r.requiresLock then do
    let d ← Rendering.state
    Process.exclusive lockWord putLockWord d.lock.patience (r.generate s)
  else r.generate s

end Report

end DeviceReports
