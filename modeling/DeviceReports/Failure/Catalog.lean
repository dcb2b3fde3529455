import DeviceReports.Document.Keyed
import DeviceReports.Text.Uppercase

/-!
# The error catalog

Each error code has one entry: its domain, the statuses it maps to, the kind of error that
carries it and whether it is expected. The catalog can be looked up by code name, listed, and
checked for consistency.
-/

set_option autoImplicit false

namespace DeviceReports

/-- What an error means to its caller: bad input, a missing thing, a clash, a collaborator
that failed, or a broken invariant. -/
inductive ErrorKind where
  | validation
  | notFound
  | conflict
  | external
  | internal
deriving DecidableEq, Repr

def ErrorKind.tag : ErrorKind → String
  | .validation => "ValidationError"
  | .notFound => "NotFoundError"
  | .conflict => "ConflictError"
  | .external => "ExternalError"
  | .internal => "InternalError"

inductive ErrorCode where
  | internalError
  | internalUnavailable
  | resourceNotFound
  | resourceConflict
  | validationFailed
  | reportConfigurationInvalid
  | reportReadRangeInvalid
  | reportNotFound
  | reportNameDuplicate
  | reportNamespaceCreateFailed
  | reportRegistrationFailed
  | lockDeadlockDetected
  | deviceSnapshotInvalid
deriving DecidableEq, Repr

structure CatalogEntry where
  domain : String
  httpStatus : Nat
  grpcCode : String
  kind : ErrorKind
  expected : Bool
  title : String
  description : String
deriving DecidableEq, Repr

namespace ErrorCode

/-- Every code, in catalog order. -/
def all : List ErrorCode :=
  [.internalError, .internalUnavailable, .resourceNotFound, .resourceConflict,
    .validationFailed, .reportConfigurationInvalid, .reportReadRangeInvalid, .reportNotFound,
    .reportNameDuplicate, .reportNamespaceCreateFailed, .reportRegistrationFailed,
    .lockDeadlockDetected, .deviceSnapshotInvalid]

def name : ErrorCode → String
  | .internalError => "INTERNAL_ERROR"
  | .internalUnavailable => "INTERNAL_UNAVAILABLE"
  | .resourceNotFound => "RESOURCE_NOT_FOUND"
  | .resourceConflict => "RESOURCE_CONFLICT"
  | .validationFailed => "VALIDATION_FAILED"
  | .reportConfigurationInvalid => "REPORT_CONFIGURATION_INVALID"
  | .reportReadRangeInvalid => "REPORT_READ_RANGE_INVALID"
  | .reportNotFound => "REPORT_NOT_FOUND"
  | .reportNameDuplicate => "REPORT_NAME_DUPLICATE"
  | .reportNamespaceCreateFailed => "REPORT_NAMESPACE_CREATE_FAILED"
  | .reportRegistrationFailed => "REPORT_REGISTRATION_FAILED"
  | .lockDeadlockDetected => "LOCK_DEADLOCK_DETECTED"
  | .deviceSnapshotInvalid => "DEVICE_SNAPSHOT_INVALID"

def entry : ErrorCode → CatalogEntry
  | .internalError =>
    ⟨"internal", 500, "INTERNAL", .internal, false, "Internal error",
      "An unexpected error occurred"⟩
  | .internalUnavailable =>
    ⟨"internal", 503, "UNAVAILABLE", .external, false, "Service unavailable",
      "A collaborator is temporarily unavailable"⟩
  | .resourceNotFound =>
    ⟨"resource", 404, "NOT_FOUND", .notFound, true, "Resource not found",
      "The requested resource does not exist"⟩
  | .resourceConflict =>
    ⟨"resource", 409, "ALREADY_EXISTS", .conflict, true, "Resource conflict",
      "The operation conflicts with the current resource state"⟩
  | .validationFailed =>
    ⟨"validation", 400, "INVALID_ARGUMENT", .validation, true, "Validation failed",
      "The input failed validation"⟩
  | .reportConfigurationInvalid =>
    ⟨"report", 400, "INVALID_ARGUMENT", .validation, true, "Invalid diagnostics configuration",
      "The diagnostics configuration failed validation"⟩
  | .reportReadRangeInvalid =>
    ⟨"report", 400, "INVALID_ARGUMENT", .validation, true, "Invalid read range",
      "Read offset and length must be non-negative safe integers"⟩
  | .reportNotFound =>
    ⟨"report", 404, "NOT_FOUND", .notFound, true, "Report not found",
      "No report with this name is registered for the device"⟩
  | .reportNameDuplicate =>
    ⟨"report", 409, "ALREADY_EXISTS", .conflict, true, "Duplicate report name",
      "A report with this name already exists for the device"⟩
  | .reportNamespaceCreateFailed =>
    ⟨"report", 502, "UNAVAILABLE", .external, false, "Report namespace creation failed",
      "The host could not create the device diagnostics directory"⟩
  | .reportRegistrationFailed =>
    ⟨"report", 502, "UNAVAILABLE", .external, false, "Report registration failed",
      "The host could not create a report entry; registration was rolled back"⟩
  | .lockDeadlockDetected =>
    ⟨"lock", 500, "ABORTED", .internal, false, "State lock deadlock",
      "The state lock could not be acquired within the spin ceiling"⟩
  | .deviceSnapshotInvalid =>
    ⟨"device", 400, "INVALID_ARGUMENT", .validation, true, "Invalid device snapshot",
      "The device snapshot document failed schema validation"⟩

def ofName? (s : String) : Option ErrorCode := all.find? (·.name == s)

end ErrorCode

/-- The code of an error that is built from a message alone. -/
def ErrorKind.defaultCode : ErrorKind → ErrorCode
  | .validation => .validationFailed
  | .notFound => .resourceNotFound
  | .conflict => .resourceConflict
  | .external => .internalUnavailable
  | .internal => .internalError

namespace Catalog

def entry? (s : String) : Option CatalogEntry := (ErrorCode.ofName? s).map ErrorCode.entry

/-- The member names that every keyed record answers to besides its own keys. -/
def memberNames : List String :=
  ["constructor", "hasOwnProperty", "isPrototypeOf", "propertyIsEnumerable", "toString",
    "toLocaleString", "valueOf", "__proto__", "__defineGetter__", "__defineSetter__",
    "__lookupGetter__", "__lookupSetter__"]

/-- Whether the catalog answers to a name: a code, or a name that every record answers to. -/
def answersTo (s : String) : Bool := (ErrorCode.ofName? s).isSome || memberNames.contains s

def codeNames : List String := ErrorCode.all.map ErrorCode.name

/-- The codes of one domain, in catalog order. -/
def codeNamesOf (domain : String) : List String :=
  (ErrorCode.all.filter fun c => c.entry.domain == domain).map ErrorCode.name

/-- The part of an entry that the consistency check reads. -/
structure Row where
  domain : String
  httpStatus : Number

def rows : List (String × Row) :=
  ErrorCode.all.map fun c => (c.name, ⟨c.entry.domain, c.entry.httpStatus⟩)

/-- The rows of the catalog with further ones written behind them. -/
def extended (more : List (String × Row)) : List (String × Row) :=
  Keyed.ordered (Keyed.putAll rows more)

def isCodeChar (c : Char) : Bool := c.isUpper || c.isDigit || c = '_'

/-- An upper-case letter, then upper-case letters, digits and underscores. -/
def isCodeName (s : String) : Bool :=
  match s.toList with
  | [] => false
  | c :: cs => c.isUpper && cs.all isCodeChar

def carriesDomain (code domain : String) : Bool :=
  domain == "internal" || (Text.uppercase domain ++ "_").toList.isPrefixOf code.toList

/-- What is wrong with one row. -/
def problemsOf (code : String) (r : Row) : List String :=
  (if isCodeName code then [] else ["Code '" ++ code ++ "' is not in UPPER_SNAKE_CASE format"])
    ++ (if r.httpStatus < 100 ∨ 600 ≤ r.httpStatus then
        ["Code '" ++ code ++ "' has invalid HTTP status " ++ r.httpStatus.text]
      else [])
    ++ (if carriesDomain code r.domain then []
      else ["Code '" ++ code ++ "' does not carry its domain prefix '" ++ r.domain ++ "'"])

def problems (rs : List (String × Row)) : List String := rs.flatMap fun r => problemsOf r.1 r.2

end Catalog

end DeviceReports
