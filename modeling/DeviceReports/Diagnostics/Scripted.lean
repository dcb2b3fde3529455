import DeviceReports.Diagnostics
import DeviceReports.Report.Script

/-!
# Diagnostics with scripted reports

Scripted reports may read each other through the diagnostics they belong to. Such reads nest,
and one that nests too deep fails.
-/

set_option autoImplicit false

namespace DeviceReports.Diagnostics

/-- The levels down to which reads nest. -/
def readLevels : Nat := 1000

def tooDeep : Failure := .outOfRange "Maximum call stack size exceeded"

/-- Reports whose nested reads go `levels` deep. -/
def scriptedReports (machine : String) (d : Device) (config : Value) (scripts : List Script) :
    Nat → List Report
  | 0 => scripts.map (Script.toReport fun _ _ _ => Process.fail tooDeep)
  | levels + 1 =>
    scripts.map (Script.toReport fun name offset length => do
      let inner : Diagnostics Unit ← Process.ofExcept
        (create machine d config (some (scriptedReports machine d config scripts levels)))
      inner.read name offset length)

/-- Diagnostics with scripted reports in place of the built-in ones. -/
def ofScripts {δ : Type} (machine : String) (d : Device) (config : Value) (scripts : List Script) :
    Except Failure (Diagnostics δ) :=
  create machine d config (some (scriptedReports machine d config scripts readLevels))

end DeviceReports.Diagnostics
