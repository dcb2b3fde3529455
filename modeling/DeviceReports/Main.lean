import DeviceReports.Cat
import DeviceReports.Cat.Yaml

/-!
# The program

Reads the snapshot that the arguments name and runs the cat command on it.
-/

set_option autoImplicit false

namespace DeviceReports

/-- What is said of a file that cannot be read. -/
def unreadable (name : String) (e : IO.Error) : String :=
  match e with
  | .inappropriateType _ 21 _ => "EISDIR: illegal operation on a directory, read"
  | .inappropriateType _ _ _ => "ENOTDIR: not a directory, open '" ++ name ++ "'"
  | .permissionDenied _ _ _ => "EACCES: permission denied, open '" ++ name ++ "'"
  | _ => "ENOENT: no such file or directory, open '" ++ name ++ "'"

/-- The text of a file, or the failure to read it. -/
def readText (name : String) : IO (Except Failure String) := do
  try
    let bytes ← IO.FS.readBinFile name
    pure (.ok (String.ofList (Text.decodeChars bytes.toList)))
  catch e =>
    pure (.error (.plain (unreadable name e)))

/-- The architecture of the machine that the program runs on. -/
def machine : String := "x64"

/-- Runs the cat command on the files of the current directory. A run of it always ends. -/
def runCat (options : List String) : IO UInt32 := do
  let source := match Cat.Arguments.parse options with
    | .ok a => a.source?
    | .error _ => none
  let text ← match source with
    | some name => readText name
    | none => pure (.ok "")
  match Cat.execute { readFile := fun _ => text, parse := Cat.Yaml.read, machine } options with
  | none => pure 1
  | some exit =>
    let out ← IO.getStdout
    out.putStr exit.stdout
    out.flush
    for line in exit.stderr do
      IO.eprintln line
    pure (UInt32.ofNat exit.code)

end DeviceReports

def main (options : List String) : IO UInt32 := DeviceReports.runCat options
