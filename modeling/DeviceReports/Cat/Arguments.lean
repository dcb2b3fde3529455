import DeviceReports.Failure
import DeviceReports.Number.Reading
import DeviceReports.Report.Window
import DeviceReports.Text.Parts

/-!
# Arguments of the cat command

The options that say which snapshot to print, which of its reports, and in which steps. An
option that takes a value takes the next argument, unless that is missing or empty; then the
option says nothing. Arguments arrive as encoded text, and so as strings of characters: none holds
half of a pair alone.
-/

set_option autoImplicit false

namespace DeviceReports.Cat

structure Arguments where
  device : Option String := none
  reports : List String := []
  all : Bool := false
  list : Bool := false
  chunk : Number := Reader.defaultChunk
  debug : Bool := false
  help : Bool := false

namespace Arguments

/-- The parts of a text between the commas. -/
def parts (s : String) : List String := (Text.parts ',' s.toList).map String.ofList

def badChunk (shown : String) : Failure :=
  .invalid ("--chunk expects a positive integer, got '" ++ shown ++ "'")

/-- The step that a text gives: a positive safe integer. -/
def chunk? (s : String) : Option Number :=
  let n := Number.ofText s
  match n.count? with
  | some (_ + 1) => some n
  | _ => none

def unknown (option : String) : Failure := .invalid ("Unknown option '" ++ option ++ "'")

/-- The options that take no value. -/
def switch? (a : Arguments) (option : String) : Option Arguments :=
  if option = "--all" then some { a with all := true }
  else if option = "--list" then some { a with list := true }
  else if option = "--debug" then some { a with debug := true }
  else if option = "--help" then some { a with help := true }
  else none

/-- Reads options into the arguments met so far. -/
def parseFrom (a : Arguments) : List String → Except Failure Arguments
  | [] => .ok a
  | [option] =>
    if option = "--device" ∨ option = "--report" then .ok a
    else if option = "--chunk" then .error (badChunk "undefined")
    else
      match a.switch? option with
      | some a => .ok a
      | none => .error (unknown option)
  | option :: next :: rest =>
    if option = "--device" then
      if next = "" then parseFrom a (next :: rest)
      else parseFrom { a with device := some next } rest
    else if option = "--report" then
      if next = "" then parseFrom a (next :: rest)
      else parseFrom { a with reports := a.reports ++ parts next } rest
    else if option = "--chunk" then
      match chunk? next with
      | some n => parseFrom { a with chunk := n } rest
      | none => .error (badChunk next)
    else
      match a.switch? option with
      | some a => parseFrom a (next :: rest)
      | none => .error (unknown option)

def parse (options : List String) : Except Failure Arguments := parseFrom {} options

/-- The snapshot to print, if one is named. -/
def source? (a : Arguments) : Option String :=
  match a.device with
  | some source => if source = "" then none else some source
  | none => none

end Arguments

end DeviceReports.Cat
