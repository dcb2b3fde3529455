import DeviceReports.Number.Decimal

/-!
# Keyed lists

A keyed list holds one value for each key. Writing a key again keeps its place. In key order,
keys that are positions of a list come first and ascend; the others follow as they stand.
-/

set_option autoImplicit false

namespace DeviceReports.Keyed

variable {α : Type}

/-- Positions are below 2^32 - 1. -/
def positionBound : Nat := 4294967295

/-- The position that a key is the decimal text of, if it is one. -/
def position? (key : String) : Option Nat :=
  match key.toList with
  | [] => none
  | c :: cs =>
    if (c = '0' ∧ cs ≠ []) ∨ !(c :: cs).all Char.isDigit then none
    else
      match Decimal.natural? 10 (c :: cs) with
      | some n => if n < positionBound then some n else none
      | none => none

/-- Writes a field: a key met before keeps its place and takes the new value. -/
def put (fields : List (String × α)) (key : String) (v : α) : List (String × α) :=
  if fields.any (·.1 == key) then
    fields.map fun f => if f.1 == key then (key, v) else f
  else fields ++ [(key, v)]

/-- Writes fields one after the other. -/
def putAll (fields more : List (String × α)) : List (String × α) :=
  more.foldl (fun acc f => put acc f.1 f.2) fields

/-- Inserts a field at a position behind those with smaller positions. -/
def insertAt (n : Nat) (f : String × α) : List (Nat × (String × α)) → List (Nat × (String × α))
  | [] => [(n, f)]
  | (m, g) :: rest => if n < m then (n, f) :: (m, g) :: rest else (m, g) :: insertAt n f rest

/-- The fields whose keys are positions, ascending. -/
def positional (fields : List (String × α)) : List (Nat × (String × α)) :=
  fields.foldl
    (fun acc f => match position? f.1 with
      | some n => insertAt n f acc
      | none => acc) []

/-- The fields in key order. -/
def ordered (fields : List (String × α)) : List (String × α) :=
  (positional fields).map (·.2) ++ fields.filter fun f => (position? f.1).isNone

end DeviceReports.Keyed
