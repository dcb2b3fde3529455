import DeviceReports.Failure

/-!
# Schemas

A schema says which documents are well formed. Checking a document reports every position
that fails, in the order of the schema: a value of the wrong basic type counts once and is
not looked into, all other failing checks of one value are reported in their own order. A
record that admits no other keys reports those it has in one finding after all others.
-/

set_option autoImplicit false

namespace DeviceReports

/-- One requirement on a number. -/
inductive NumberRule where
  | integer
  | atLeast (bound : Nat)
  | positive
  | atMost (bound : Nat) (message : Option String)
  | powerOfTwo (message : String)
deriving DecidableEq, Repr

/-- What stands in for a field that a document leaves out. -/
inductive Presence where
  | required
  | optional
  | default (n : Number)
  | defaultFlag (b : Bool)
deriving DecidableEq, Repr

mutual

inductive Schema where
  | number (rules : List NumberRule)
  | text (nonempty : Bool)
  | boolean
  | list (item : Schema)
  | digitKeyed (message : String) (entry : Schema)
  | record (fields : Fields) (closed : Bool)

/-- The fields of a record, in declaration order. -/
inductive Fields where
  | nil
  | cons (name : String) (presence : Presence) (schema : Schema) (rest : Fields)

end

namespace Fields

def names : Fields → List String
  | .nil => []
  | .cons name _ _ rest => name :: names rest

/-- Declares fields of one presence and schema in front of others. -/
def declare (presence : Presence) (schema : Schema) (names : List String) (rest : Fields) :
    Fields :=
  names.foldr (fun name fs => .cons name presence schema fs) rest

end Fields

/-- A number that shares no 32-bit word bit with its predecessor. -/
def Number.hasSingleBit (x : Number) : Bool :=
  decide (0 < x) && (x.word32 &&& (x - 1).word32) == 0

namespace NumberRule

def holds (r : NumberRule) (x : Number) : Bool :=
  match r with
  | .integer => x.isInteger
  | .atLeast bound => decide ((bound : Number) ≤ x)
  | .positive => decide (0 < x)
  | .atMost bound _ => decide (x ≤ (bound : Number))
  | .powerOfTwo _ => x.hasSingleBit

def code : NumberRule → String
  | .integer => "invalid_type"
  | .atLeast _ | .positive => "too_small"
  | .atMost _ _ => "too_big"
  | .powerOfTwo _ => "custom"

def message : NumberRule → String
  | .integer => "Expected integer, received float"
  | .atLeast bound => "Number must be greater than or equal to " ++ toString bound
  | .positive => "Number must be greater than 0"
  | .atMost bound none => "Number must be less than or equal to " ++ toString bound
  | .atMost _ (some message) => message
  | .powerOfTwo message => message

end NumberRule

namespace Schema

abbrev Path := List String

def pathText (path : Path) : String := String.intercalate "." path

def issueAt (path : Path) (code message : String) : Issue :=
  { field := pathText path, message, code }

/-- The word for the basic type that a schema asks for. -/
def typeName : Schema → String
  | .number _ => "number"
  | .text _ => "string"
  | .boolean => "boolean"
  | .list _ => "array"
  | .digitKeyed _ _ => "object"
  | .record _ _ => "object"

/-- The finding for a value of another basic type. -/
def mismatch (s : Schema) (path : Path) (v : Value) : List Issue :=
  match v with
  | .missing => [issueAt path "invalid_type" "Required"]
  | v => [issueAt path "invalid_type" ("Expected " ++ s.typeName ++ ", received " ++ v.typeName)]

def isDigits (key : String) : Bool := !key.isEmpty && key.toList.all Char.isDigit

def extraKeys (fs : Fields) (fields : List (String × Value)) : List String :=
  (fields.map (·.1)).filter fun k => !fs.names.contains k

def extraIssue (path : Path) (keys : List String) : List Issue :=
  if keys.isEmpty then []
  else
    let listed := String.intercalate ", " (keys.map fun k => "'" ++ k ++ "'")
    [issueAt path "unrecognized_keys" ("Unrecognized key(s) in object: " ++ listed)]

/-- Numbers the items of a list from `n` on. -/
def itemIssues (check : Path → Value → List Issue) (path : Path) : Nat → List Value → List Issue
  | _, [] => []
  | n, v :: rest => check (path ++ [toString n]) v ++ itemIssues check path (n + 1) rest

def numberIssues (rules : List NumberRule) (path : Path) (x : Number) : List Issue :=
  (rules.filter fun r => !r.holds x).map fun r => issueAt path r.code r.message

def keyIssues (message : String) (path : Path) (key : String) : List Issue :=
  if isDigits key then [] else [issueAt path "invalid_string" message]

mutual

/-- Every finding about a value that stands at a path. -/
def issues : Schema → Path → Value → List Issue
  | .number rules, path, v =>
    match v with
    | .number .nan => mismatch (.number rules) path v
    | .number x => numberIssues rules path x
    | v => mismatch (.number rules) path v
  | .text nonempty, path, v =>
    match v with
    | .string s =>
      if nonempty ∧ s.isEmpty then
        [issueAt path "too_small" "String must contain at least 1 character(s)"]
      else []
    | v => mismatch (.text nonempty) path v
  | .boolean, path, v =>
    match v with
    | .bool _ => []
    | v => mismatch .boolean path v
  | .list item, path, v =>
    match v with
    | .list items => itemIssues (issues item) path 0 items
    | v => mismatch (.list item) path v
  | .digitKeyed message entry, path, v =>
    match v with
    | .record fields => fields.flatMap fun f =>
        keyIssues message (path ++ [f.1]) f.1 ++ issues entry (path ++ [f.1]) f.2
    | v => mismatch (.digitKeyed message entry) path v
  | .record fs closed, path, v =>
    match v with
    | .record fields =>
      fieldIssues fs path (.record fields) ++
        (if closed then extraIssue path (extraKeys fs fields) else [])
    | v => mismatch (.record fs closed) path v

/-- The findings about the declared fields of a record. -/
def fieldIssues : Fields → Path → Value → List Issue
  | .nil, _, _ => []
  | .cons name presence schema rest, path, v =>
    let present := v.field name
    (if present.isMissing ∧ presence ≠ .required then []
      else issues schema (path ++ [name]) present) ++ fieldIssues rest path v

end

/-- What an absent field stands for. -/
def substitute : Presence → Value
  | .default n => .number n
  | .defaultFlag b => .bool b
  | _ => .missing

mutual

/-- A well-formed value with its undeclared fields dropped and its absent ones filled in. -/
def normalized : Schema → Value → Value
  | .list item, .list items => .list (items.map (normalized item))
  | .digitKeyed _ entry, .record fields =>
    .record (fields.map fun f => (f.1, normalized entry f.2))
  | .record fs _, .record fields => .record (normalizedFields fs (.record fields))
  | _, v => v

def normalizedFields : Fields → Value → List (String × Value)
  | .nil, _ => []
  | .cons name presence schema rest, v =>
    let present := v.field name
    let others := normalizedFields rest v
    if present.isMissing then
      match substitute presence with
      | .missing => others
      | filled => (name, filled) :: others
    else (name, normalized schema present) :: others

end

/-- A document with its defaults filled in, or everything that is wrong with it. -/
def validate (s : Schema) (v : Value) : Except (List Issue) Value :=
  match issues s [] v with
  | [] => .ok (normalized s v)
  | found => .error found

end Schema

end DeviceReports
