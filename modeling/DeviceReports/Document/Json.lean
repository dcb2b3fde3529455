import DeviceReports.Document
import DeviceReports.Text.Units

/-!
# JSON documents

A reader that admits nothing but JSON, and says of a text that is none where it goes wrong: the
place is told by a few units of the text around it, or by its line and column.
-/

set_option autoImplicit false

namespace DeviceReports.Json

/-- Why a text is no JSON document; `rest` is what stands behind the fault. -/
inductive Fault where
  | ended
  | unexpected (rest : List Char)
  | noDigits (rest : List Char)

/-- Refuses to go on here. -/
def refuse {α : Type} (cs : List Char) : Except Fault α :=
  .error (if cs.isEmpty then .ended else .unexpected cs)

def isBlank (c : Char) : Bool := c = ' ' || c = '\t' || c = '\n' || c = '\r'

def skip (cs : List Char) : List Char := cs.dropWhile isBlank

/-- Goes over the characters of a word. -/
def word : List Char → List Char → Except Fault (List Char)
  | [], cs => .ok cs
  | _ :: _, [] => refuse []
  | w :: ws, c :: cs => if c = w then word ws cs else refuse (c :: cs)

/-- A character that a number may hold behind its first digit. -/
def isNumberChar (c : Char) : Bool :=
  c.isDigit || c = '.' || c = 'e' || c = 'E' || c = '+' || c = '-'

/-- An unsigned number. -/
def magnitude (cs : List Char) : Except Fault (Number × List Char) :=
  match Decimal.unsigned? (cs.takeWhile isNumberChar) with
  | some n => .ok (n, cs.dropWhile isNumberChar)
  | none => refuse cs

def startsDigit : List Char → Bool
  | c :: _ => c.isDigit
  | [] => false

def number (cs : List Char) : Except Fault (Number × List Char) :=
  match cs with
  | '-' :: rest => do
    if startsDigit rest then
      let (n, rest) ← magnitude rest
      pure (-n, rest)
    else .error (.noDigits rest)
  | cs => if startsDigit cs then magnitude cs else refuse cs

/-- The character that a one-letter escape stands for. -/
def escaped? (c : Char) : Option Char :=
  if c = '"' ∨ c = '\\' ∨ c = '/' then some c
  else if c = 'n' then some '\n'
  else if c = 'r' then some '\r'
  else if c = 't' then some '\t'
  else if c = 'b' then some (Char.ofNat 8)
  else if c = 'f' then some (Char.ofNat 12)
  else none

/-- The units up to the closing double quote and what follows it. -/
def units? : List Char → Option (Text × List Char)
  | [] => none
  | '"' :: rest => some ([], rest)
  | '\\' :: 'u' :: a :: b :: c :: d :: rest => do
    let unit := UInt16.ofNat (← Decimal.natural? 16 [a, b, c, d])
    let (t, rest) ← units? rest
    pure (unit :: t, rest)
  | '\\' :: c :: rest => do
    let c ← escaped? c
    let (t, rest) ← units? rest
    pure (Text.ofChar c ++ t, rest)
  | c :: rest => do
    let (t, rest) ← units? rest
    pure (Text.ofChar c ++ t, rest)

/-- A string between double quotes. -/
def string (cs : List Char) : Except Fault (String × List Char) :=
  match cs with
  | '"' :: rest =>
    match units? rest with
    | some (t, rest) => .ok (t.toString, rest)
    | none => .error .ended
  | cs => refuse cs

/-- A value that is no collection. -/
def scalar (cs : List Char) : Except Fault (Value × List Char) :=
  match cs with
  | '"' :: _ => do
    let (s, rest) ← string cs
    pure (.string s, rest)
  | 'n' :: rest => do pure (.null, ← word "ull".toList rest)
  | 't' :: rest => do pure (.bool true, ← word "rue".toList rest)
  | 'f' :: rest => do pure (.bool false, ← word "alse".toList rest)
  | cs => do
    let (n, rest) ← number cs
    pure (.number n, rest)

mutual

/-- The value at the start of a text and what follows it, nested at most `depth` deep. -/
def value : Nat → List Char → Except Fault (Value × List Char)
  | 0, cs => refuse cs
  | depth + 1, cs =>
    match skip cs with
    | '[' :: rest =>
      match skip rest with
      | ']' :: rest => .ok (.list [], rest)
      | rest => items depth [] rest
    | '{' :: rest =>
      match skip rest with
      | '}' :: rest => .ok (.record [], rest)
      | rest => fields depth [] rest
    | cs => scalar cs

/-- The items up to the end of a list, after those in `done`, latest first. -/
def items : Nat → List Value → List Char → Except Fault (Value × List Char)
  | 0, _, cs => refuse cs
  | depth + 1, done, cs => do
    let (v, rest) ← value depth cs
    match skip rest with
    | ',' :: rest => items depth (v :: done) rest
    | ']' :: rest => .ok (.list (v :: done).reverse, rest)
    | rest => refuse rest

/-- The fields up to the end of a record, after those in `done`, latest first. -/
def fields : Nat → List (String × Value) → List Char → Except Fault (Value × List Char)
  | 0, _, cs => refuse cs
  | depth + 1, done, cs => do
    let (key, rest) ← string (skip cs)
    let (v, rest) ← value depth (← word [':'] (skip rest))
    match skip rest with
    | ',' :: rest => fields depth ((key, v) :: done) rest
    | '}' :: rest => .ok (Value.ofPairs ((key, v) :: done).reverse, rest)
    | rest => refuse rest

end

/-- The document that a whole text is. Each nested reading has consumed something, so the length
of the text bounds the depth. -/
def document (cs : List Char) : Except Fault Value := do
  let (v, rest) ← value (2 * cs.length + 2) cs
  match skip rest with
  | [] => pure v
  | rest => refuse rest

/-- How many units of a text are shown on each side of a fault. -/
def shownUnits : Nat := 10

def quoted (t : Text) : String := "\"" ++ t.toString ++ "\""

/-- The surroundings of a position; a short text is shown whole. -/
def surroundings (source : Text) (position : Nat) : String :=
  if source.length ≤ 2 * shownUnits then quoted source
  else if position < shownUnits then quoted (source.take (position + shownUnits)) ++ "..."
  else
    let shown := source.drop (position - shownUnits)
    if position + shownUnits < source.length then
      "..." ++ quoted (shown.take (2 * shownUnits)) ++ "..."
    else "..." ++ quoted shown

/-- Where the characters before a position lead: the line and the column. -/
def lineAndColumn (before : List Char) : Nat × Nat :=
  (before.count '\n' + 1, (Text.ofChars (before.reverse.takeWhile (· ≠ '\n'))).length + 1)

/-- What is said of a fault in a text. -/
def Fault.message (source : List Char) (f : Fault) : String :=
  let before (rest : List Char) := source.take (source.length - rest.length)
  let position (rest : List Char) := (Text.ofChars (before rest)).length
  match f with
  | .ended => "Unexpected end of JSON input"
  | .unexpected rest =>
    let token := String.ofList (rest.take 1)
    "Unexpected token '" ++ token ++ "', "
      ++ surroundings (Text.ofChars source) (position rest) ++ " is not valid JSON"
  | .noDigits rest =>
    let (line, column) := lineAndColumn (before rest)
    "No number after minus sign in JSON at position " ++ toString (position rest) ++ " (line "
      ++ toString line ++ " column " ++ toString column ++ ")"

/-- Reads a document, or says what is wrong with the text. -/
def read (text : String) : Except String Value :=
  match document text.toList with
  | .ok v => .ok v
  | .error f => .error (f.message text.toList)

end DeviceReports.Json
