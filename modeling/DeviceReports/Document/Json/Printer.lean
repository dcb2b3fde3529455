import DeviceReports.Document
import DeviceReports.Document.Quoted

/-!
# Printed documents

The compact JSON text of a document. What JSON cannot hold is left out: an absent field is
dropped, an absent item is null, and so is a number that is no real.
-/

set_option autoImplicit false

namespace DeviceReports.Json

mutual

def print : Value → String
  | .missing => "null"
  | .null => "null"
  | .bool b => if b then "true" else "false"
  | .number (.finite q) => (Number.finite q).text
  | .number _ => "null"
  | .string s => Quoted.quote s
  | .list items => "[" ++ String.intercalate "," (printItems items) ++ "]"
  | .record fields => "\x7b" ++ String.intercalate "," (printFields fields) ++ "\x7d"

def printItems : List Value → List String
  | [] => []
  | v :: rest => print v :: printItems rest

def printFields : List (String × Value) → List String
  | [] => []
  | (_, .missing) :: rest => printFields rest
  | (key, v) :: rest => (Quoted.quote key ++ ":" ++ print v) :: printFields rest

end

end DeviceReports.Json
