import DeviceReports.Document.Json.Printer
import DeviceReports.Failure.Catalog

/-!
# Failures

What can go wrong, by cause. Every failure of the library is described by the same fields,
most of them taken from the catalog entry of its code; a foreign failure, raised by a
collaborator, has only a name and a message.
-/

set_option autoImplicit false

namespace DeviceReports

/-- One finding of a validation: where, what, and the kind of check that failed. -/
structure Issue where
  field : String
  message : String
  code : String
  value : Option Value := none
deriving Inhabited

def Issue.line (i : Issue) : String := i.field ++ ": " ++ i.message

/-- The findings of a validation in one line. -/
def Issue.summary (issues : List Issue) : String :=
  String.intercalate "; " (issues.map Issue.line)

/-- The failure behind another one. -/
structure Cause where
  name : String
  message : String
deriving DecidableEq, Repr

def Cause.text (c : Cause) : String := c.name ++ ": " ++ c.message

/-- Further facts about a failure, by name. -/
abbrev Metadata := List (String × Value)

inductive Failure where
  | general (kind : ErrorKind) (code : ErrorCode) (message : String) (issues : List Issue)
      (metadata : Option Metadata) (traceId : Option String)
      (cause : Option Cause)
  | configuration (message : String) (issues : List Issue)
  | readRange (offset length : Option Number)
  | reportNotFound (report device : String)
  | duplicateReport (report : String)
  | namespaceCreation (path : String) (cause : Option Cause)
  | registration (path report : String) (rolledBack : List String) (cause : Option Cause)
  | deadlock (iterations : Option Number)
  | snapshot (source : String) (issues : List Issue)
  | foreign (name message : String)
deriving Inhabited

/-- The fields that describe a failure of the library. -/
structure ErrorFields where
  kind : ErrorKind
  name : String
  code : ErrorCode
  message : String
  metadata : Option Metadata := none
  traceId : Option String := none
  cause : Option Cause := none
  issues : Option (List Issue) := none
  offset : Option Number := none
  length : Option Number := none
  reportName : Option String := none
  path : Option String := none
  rolledBack : Option (List String) := none
  iterations : Option Number := none

/-- One line that names the failure, its code and message, then the metadata if there is any
and the trace id if it is not blank. -/
def ErrorFields.text (f : ErrorFields) : String :=
  f.name ++ " [" ++ f.code.name ++ "]: " ++ f.message
    ++ (match f.metadata with
      | some (m :: ms) => " " ++ Json.print (.record (m :: ms))
      | _ => "")
    ++ (match f.traceId with
      | some t => if t = "" then "" else " [trace: " ++ t ++ "]"
      | none => "")

namespace Failure

/-- A failure of one kind from a message alone, under the code the kind has by itself. -/
def ofMessage (kind : ErrorKind) (message : String)
    (metadata : Option Metadata := none) (traceId : Option String := none) :
    Failure :=
  .general kind kind.defaultCode message [] metadata traceId none

def invalid (message : String) : Failure := ofMessage .validation message

def internal (message : String) : Failure := ofMessage .internal message

def missingMessage (resource id : String) : String :=
  resource ++ " with ID '" ++ id ++ "' not found"

def missingResource (resource id : String) : Failure :=
  ofMessage .notFound (missingMessage resource id)

/-- A failed range check of the machine underneath. -/
def outOfRange (message : String) : Failure := .foreign "RangeError" message

def plain (message : String) : Failure := .foreign "Error" message

/-- A thrown value that is no failure, made into one. -/
def ofValue (v : Value) : Failure := plain v.display

/-- A figure of a failure in its message. -/
def shown (figure : Option Number) : String :=
  match figure with
  | some n => n.text
  | none => "undefined"

/-- The describing fields; a foreign failure has none. -/
def fields? : Failure → Option ErrorFields
  | .general kind code message issues metadata traceId cause =>
    some {
      kind, name := kind.tag, code, message, metadata, traceId, cause
      issues := if kind = .validation then some issues else none }
  | .configuration message issues =>
    some {
      kind := .validation, name := "ReportConfigurationError"
      code := .reportConfigurationInvalid
      message := "Invalid diagnostics configuration: " ++ message, issues }
  | .readRange offset length =>
    some {
      kind := .validation, name := "ReportReadRangeError", code := .reportReadRangeInvalid
      message := "Invalid read range: offset=" ++ shown offset ++ ", length=" ++ shown length
      metadata := some [("offset", .string (shown offset)), ("length", .string (shown length))]
      issues := some [], offset, length }
  | .reportNotFound report device =>
    some {
      kind := .notFound, name := "ReportNotFoundError", code := .reportNotFound
      message := "Report '" ++ report ++ "' is not registered for device " ++ device
      metadata := some [("reportName", .string report), ("deviceIndex", .string device)]
      reportName := report }
  | .duplicateReport report =>
    some {
      kind := .conflict, name := "DuplicateReportError", code := .reportNameDuplicate
      message := "Report '" ++ report ++ "' is already defined"
      metadata := some [("reportName", .string report)], reportName := report }
  | .namespaceCreation path cause =>
    some {
      kind := .external, name := "ReportNamespaceError", code := .reportNamespaceCreateFailed
      message := "Cannot create " ++ path, metadata := some [("path", .string path)], path, cause }
  | .registration path report rolledBack cause =>
    some {
      kind := .external, name := "ReportRegistrationError", code := .reportRegistrationFailed
      message := "Cannot create " ++ path ++ "/" ++ report
      metadata := some [("path", .string path), ("reportName", .string report),
        ("rolledBack", .string (String.intercalate "," rolledBack))]
      path, reportName := report, rolledBack, cause }
  | .deadlock iterations =>
    some {
      kind := .internal, name := "StateLockDeadlockError", code := .lockDeadlockDetected
      message := "State lock deadlock detected: not acquired after " ++ shown iterations
        ++ " iterations"
      metadata := some [("iterations", .string (shown iterations))], iterations }
  | .snapshot source issues =>
    some {
      kind := .validation, name := "DeviceSnapshotInvalidError", code := .deviceSnapshotInvalid
      message := "Invalid device snapshot " ++ source ++ ": " ++ Issue.summary issues, issues }
  | .foreign _ _ => none

def name (f : Failure) : String :=
  match f with
  | .foreign name _ => name
  | f => match f.fields? with
    | some d => d.name
    | none => ""

def message (f : Failure) : String :=
  match f with
  | .foreign _ message => message
  | f => match f.fields? with
    | some d => d.message
    | none => ""

def toCause (f : Failure) : Cause := ⟨f.name, f.message⟩

def kind? (f : Failure) : Option ErrorKind := f.fields?.map (·.kind)

def code? (f : Failure) : Option ErrorCode := f.fields?.map (·.code)

/-- Whether the failure belongs to the course of things, as its code's entry says. -/
def isExpected (f : Failure) : Bool :=
  match f.code? with
  | some c => c.entry.expected
  | none => false

end Failure

/-- Something raised: a failure, or a value that is none. -/
inductive Raised where
  | failure (f : Failure)
  | value (v : Value)

namespace Raised

def unknownMessage : String := "An unknown error occurred"

/-- The message to show for something raised. -/
def message : Raised → String
  | .failure f => f.message
  | .value (.string s) => s
  | .value _ => unknownMessage

/-- A failure of the library stays as it is; all else is wrapped in an internal one. -/
def wrap (r : Raised) (traceId : Option String) : Failure :=
  match r with
  | .failure f =>
    match f.fields? with
    | some _ => f
    | none =>
      .general .internal .internalError f.message [] (some [("originalName", .string f.name)])
        traceId (some f.toCause)
  | .value _ => Failure.ofMessage .internal r.message none traceId

/-- Whether wrapping leaves the thing raised as it is. -/
def isOwn : Raised → Bool
  | .failure f => f.fields?.isSome
  | .value _ => false

/-- Whether something raised says of itself that it is expected. -/
def isExpected : Raised → Bool
  | .failure f => f.isExpected
  | .value v =>
    match v.field "isExpected" with
    | .bool b => b
    | _ => false

end Raised

end DeviceReports
