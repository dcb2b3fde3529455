import DeviceReports.Failure

/-!
# Failures as documents

The fields that describe a failure of the library, as a record. A field that a failure does
not have is left out, and so is a blank trace id.
-/

set_option autoImplicit false

namespace DeviceReports

namespace Value

/-- A record of the fields that are there. -/
def ofPresent (fields : List (String × Option Value)) : Value :=
  .record (fields.filterMap fun f => f.2.map fun v => (f.1, v))

def strings (texts : List String) : Value := .list (texts.map .string)

end Value

def Issue.toValue (i : Issue) : Value :=
  .ofPresent [("field", some (.string i.field)), ("message", some (.string i.message)),
    ("code", some (.string i.code)), ("value", i.value)]

namespace ErrorFields

/-- The trace id, unless it is blank. -/
def shownTraceId (f : ErrorFields) : Option String :=
  match f.traceId with
  | some t => if t = "" then none else some t
  | none => none

/-- The fields of the catalog entry and of the failure itself. -/
def toValue (f : ErrorFields) : Value :=
  let entry := f.code.entry
  .ofPresent [
    ("_tag", some (.string f.kind.tag)), ("name", some (.string f.name)),
    ("code", some (.string f.code.name)), ("message", some (.string f.message)),
    ("domain", some (.string entry.domain)), ("httpStatus", some (.number entry.httpStatus)),
    ("grpcCode", some (.string entry.grpcCode)), ("isExpected", some (.bool entry.expected)),
    ("metadata", f.metadata.map .record),
    ("traceId", f.shownTraceId.map .string), ("string", some (.string f.text)),
    ("issues", f.issues.map fun found => .list (found.map Issue.toValue)),
    ("offset", f.offset.map .number), ("length", f.length.map .number),
    ("reportName", f.reportName.map .string), ("path", f.path.map .string),
    ("rolledBack", f.rolledBack.map Value.strings), ("iterations", f.iterations.map .number),
    ("cause", f.cause.map fun c => .string c.text)]

end ErrorFields

/-- A failure by name and message, with the describing fields where it has them. -/
def Failure.toValue (f : Failure) : Value :=
  .ofPresent [("error", some (.string f.name)), ("message", some (.string f.message)),
    ("detail", f.fields?.map ErrorFields.toValue)]

end DeviceReports
