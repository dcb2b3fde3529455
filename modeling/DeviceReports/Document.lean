import DeviceReports.Document.Keyed

/-!
# Documents

A document is the value that a snapshot file or a configuration holds. Records keep their
fields in key order. A field that holds `missing` counts as absent. The texts of a document are
strings of characters, as an encoded file holds them. A half of a pair that stands alone, which no
encoding has and only an escape could write, is no such text; it arises where what is printed of a
text is cut in 16-bit units.
-/

set_option autoImplicit false

namespace DeviceReports

inductive Value where
  | missing
  | null
  | bool (b : Bool)
  | number (n : Number)
  | string (s : String)
  | list (items : List Value)
  | record (fields : List (String × Value))
deriving Inhabited

namespace Value

/-- The record that pairs written one after the other give. -/
def ofPairs (pairs : List (String × Value)) : Value :=
  .record (Keyed.ordered (Keyed.putAll [] pairs))

def lookup (fields : List (String × Value)) (key : String) : Value :=
  match fields.find? (·.1 == key) with
  | some f => f.2
  | none => .missing

/-- The field of a record, `missing` where there is none. -/
def field (v : Value) (key : String) : Value :=
  match v with
  | .record fields => lookup fields key
  | _ => .missing

/-- Whether a record has the key at all, whatever it holds. -/
def hasKey (v : Value) (key : String) : Bool :=
  match v with
  | .record fields => fields.any (·.1 == key)
  | _ => false

def isMissing : Value → Bool
  | .missing => true
  | _ => false

/-- The word that issue messages use for the type of a value. -/
def typeName : Value → String
  | .missing => "undefined"
  | .null => "null"
  | .bool _ => "boolean"
  | .number .nan => "nan"
  | .number _ => "number"
  | .string _ => "string"
  | .list _ => "array"
  | .record _ => "object"

mutual

/-- The plain text of a value, as it stands in a message. -/
def display : Value → String
  | .missing => "undefined"
  | .null => "null"
  | .bool b => if b then "true" else "false"
  | .number n => n.text
  | .string s => s
  | .list items => String.intercalate "," (displayItems items)
  | .record _ => "[object Object]"

/-- Items of a list; an absent or null item is written as nothing. -/
def displayItems : List Value → List String
  | [] => []
  | .missing :: rest => "" :: displayItems rest
  | .null :: rest => "" :: displayItems rest
  | v :: rest => display v :: displayItems rest

end

def string? : Value → Option String
  | .string s => some s
  | _ => none

def number? : Value → Option Number
  | .number n => some n
  | _ => none

def bool? : Value → Option Bool
  | .bool b => some b
  | _ => none

def list? : Value → Option (List Value)
  | .list items => some items
  | _ => none

def fields? : Value → Option (List (String × Value))
  | .record fields => some fields
  | _ => none

/-- The items of a list, none for any other value. -/
def items (v : Value) : List Value := v.list?.getD []

def stringD (v : Value) (default : String) : String := v.string?.getD default

def numberD (v : Value) (default : Number) : Number := v.number?.getD default

def boolD (v : Value) (default : Bool) : Bool := v.bool?.getD default

/-- A value that is there, null among them. -/
def given? : Value → Option Value
  | .missing => none
  | v => some v

/-- A value with contents: neither absent nor null. -/
def present? : Value → Option Value
  | .missing => none
  | .null => none
  | v => some v

end Value

end DeviceReports
