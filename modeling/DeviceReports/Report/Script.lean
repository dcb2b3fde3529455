import DeviceReports.Report

/-!
# Scripted reports

A script renders a report step by step: it prints, fails, shows what a report can see of the
lock, the buffer and the bounds, or reads another report of the same device.
-/

set_option autoImplicit false

namespace DeviceReports

inductive ScriptStep where
  | print (text : String)
  | fail (message : String)
  | showLock
  | showBuffer
  | showBounds
  | read (name : String) (offset length : Number)

structure Script where
  name : String
  requiresLock : Bool
  steps : List ScriptStep

namespace ScriptStep

def word (b : Bool) : String := if b then "true" else "false"

def line (s : String) : Rendering Device Unit := Rendering.piece s

/-- Runs one step; `readReport` reads a report of the device. -/
def run (s : Settings) (readReport : String → Number → Number → Process Device Chunk) :
    ScriptStep → Rendering Device Unit
  | .print text => line text
  | .fail message => Process.fail (.plain message)
  | .showLock => do
    let d ← Rendering.state
    line ("locked=" ++ word d.lock.isLocked ++ "\n")
  | .showBuffer => do
    let out ← Rendering.output
    line ("overflowed=" ++ word out.overflowed ++ " length=" ++ out.length.text ++ "\n")
  | .showBounds => line (s.sizeLimit.text ++ "/" ++ s.bufferCapacity.text ++ "\n")
  | .read name offset length => do
    let c ← Rendering.onState (readReport name offset length)
    line ("[" ++ toString c.bytes.length ++ " " ++ word c.eof ++ "]\n")

def runAll (s : Settings) (readReport : String → Number → Number → Process Device Chunk) :
    List ScriptStep → Rendering Device Unit
  | [] => pure ()
  | step :: rest => do
    step.run s readReport
    runAll s readReport rest

end ScriptStep

namespace Script

/-- The report of a script. -/
def toReport (readReport : String → Number → Number → Process Device Chunk) (x : Script) :
    Report where
  name := x.name
  requiresLock := x.requiresLock
  generate s := ScriptStep.runAll s readReport x.steps

end Script

end DeviceReports
