import DeviceReports.Device
import DeviceReports.Document.Schema

/-!
# Settings

The settings of a device's diagnostics: page size, the two limits of a report, what the
reports list, and the architecture. Resolving a settings document checks it, fills in the
defaults, and makes sure that the line that crosses the size limit still fits the buffer.
-/

set_option autoImplicit false

namespace DeviceReports

structure Settings where
  pageSize : Number
  /-- Reads that start past this offset end at once. -/
  sizeLimit : Number
  /-- The bytes that one rendering may hold. -/
  bufferCapacity : Number
  maxOrder : Number
  bufferListWrap : Number
  debug : Bool
  architecture : String
deriving DecidableEq, Repr

namespace Settings

def defaultPageSize : Nat := 4096

/-- The room kept between the size limit and the end of the buffer. -/
def margin : Nat := 80

def defaultListWrap : Nat := 32

open Fields (declare)

def schema : Schema :=
  .record
    (declare (.default defaultPageSize)
      (.number [.integer, .atLeast 256, .powerOfTwo "pageSize must be a power of two"])
      ["pageSize"]
      (declare .optional (.number [.integer, .positive]) ["sizeLimit", "bufferCapacity"]
        (declare (.default Device.highestOrder) (.number [.integer, .atLeast 0, .atMost 31 none])
          ["maxOrder"]
          (declare (.default defaultListWrap) (.number [.integer, .positive]) ["bufferListWrap"]
            (declare (.defaultFlag false) .boolean ["debug"]
              (declare .optional (.text true) ["architecture"] .nil))))))
    true

def marginIssue (sizeLimit : Number) : Issue :=
  { field := "sizeLimit"
    message := "must be at least " ++ toString margin ++ " bytes below bufferCapacity"
    code := "too_big"
    value := some (.number sizeLimit) }

def marginMessage (sizeLimit bufferCapacity : Number) : String :=
  "sizeLimit (" ++ sizeLimit.text ++ ") must be at least " ++ toString margin
    ++ " bytes below bufferCapacity (" ++ bufferCapacity.text ++ ")"

/-- The settings of a checked document: the buffer holds a page, the size limit lies a margin below
the page size, and the architecture is that of the machine, unless the document says otherwise. -/
def ofValue (machine : String) (v : Value) : Settings :=
  let pageSize := (v.field "pageSize").numberD defaultPageSize
  { pageSize
    sizeLimit := (v.field "sizeLimit").numberD (pageSize - margin)
    bufferCapacity := (v.field "bufferCapacity").numberD pageSize
    maxOrder := (v.field "maxOrder").numberD Device.highestOrder
    bufferListWrap := (v.field "bufferListWrap").numberD defaultListWrap
    debug := (v.field "debug").boolD false
    architecture := (v.field "architecture").stringD machine }

/-- The settings that a document stands for on a machine of some architecture; an absent document
leaves all to the defaults. -/
def resolve (machine : String) (document : Value) : Except Failure Settings :=
  let document := if document.isMissing then .record [] else document
  match Schema.validate schema document with
  | .error found => .error (.configuration (Issue.summary found) found)
  | .ok v =>
    let s := ofValue machine v
    if s.bufferCapacity - s.sizeLimit < margin then
      .error (.configuration (marginMessage s.sizeLimit s.bufferCapacity) [marginIssue s.sizeLimit])
    else .ok s

end Settings

end DeviceReports
