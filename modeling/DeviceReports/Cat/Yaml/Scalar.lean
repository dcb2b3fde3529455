import DeviceReports.Document
import DeviceReports.Cat.Yaml.Folding
import DeviceReports.Text.Units

/-!
# Scalars of a YAML document

A plain scalar stands for null, a boolean or a number where it is spelled like one, and for
its own text otherwise. A quoted scalar is always a text, and its lines are folded: single
quotes are doubled inside single quotes, and a backslash begins an escape inside double quotes.
What is escaped is not folded.
-/

set_option autoImplicit false

namespace DeviceReports.Cat.Yaml

def unsignedNumber? (cs : List Char) : Option Number :=
  if cs ∈ [".inf", ".Inf", ".INF"].map String.toList then some (.infinite false)
  else Decimal.unsigned? cs

/-- The number that a plain scalar is spelled like. -/
def number? (cs : List Char) : Option Number :=
  match cs with
  | '0' :: 'x' :: ds => if ds.isEmpty then none else (Decimal.natural? 16 ds).map Number.ofNat
  | '0' :: 'o' :: ds => if ds.isEmpty then none else (Decimal.natural? 8 ds).map Number.ofNat
  | '-' :: ds => (unsignedNumber? ds).map Neg.neg
  | '+' :: ds => unsignedNumber? ds
  | ds => unsignedNumber? ds

/-- The value of a plain scalar. -/
def resolve (cs : List Char) : Value :=
  let word := String.ofList cs
  if word ∈ ["", "~", "null", "Null", "NULL"] then .null
  else if word ∈ ["true", "True", "TRUE"] then .bool true
  else if word ∈ ["false", "False", "FALSE"] then .bool false
  else if word ∈ [".nan", ".NaN", ".NAN"] then .number .nan
  else
    match number? cs with
    | some n => .number n
    | none => .string word

/-- The key that a scalar is as part of a record. -/
def keyText : Value → String
  | .null => ""
  | v => v.display

def singleQuote : Char := Char.ofNat 39

/-- Reads up to the closing single quote. -/
def singleQuoted : List Char → Option (List Char × List Char)
  | [] => none
  | [c] => if c = singleQuote then some ([], []) else none
  | c :: d :: rest =>
    if c = singleQuote then
      if d = singleQuote then do
        let (t, rest) ← singleQuoted rest
        pure (c :: t, rest)
      else some ([], d :: rest)
    else do
      let (t, rest) ← singleQuoted (d :: rest)
      pure (c :: t, rest)

/-- The character that a one-letter escape stands for. -/
def escape (c : Char) : Char :=
  if c = 'n' then '\n'
  else if c = 't' then '\t'
  else if c = 'r' then '\r'
  else if c = '0' then Char.ofNat 0
  else if c = 'a' then Char.ofNat 7
  else if c = 'b' then Char.ofNat 8
  else if c = 'v' then Char.ofNat 11
  else if c = 'f' then Char.ofNat 12
  else if c = 'e' then Char.ofNat 27
  else if c = 'N' then Char.ofNat 0x85
  else if c = '_' then Char.ofNat 0xA0
  else if c = 'L' then Char.ofNat 0x2028
  else if c = 'P' then Char.ofNat 0x2029
  else c

def doubleQuote : Char := Char.ofNat 34

def backslash : Char := Char.ofNat 92

/-- How many base-16 digits follow an escape letter. -/
def escapeDigits (c : Char) : Nat :=
  if c = 'x' then 2 else if c = 'u' then 4 else if c = 'U' then 8 else 0

/-- The units of a numeric escape: a half stands for itself, so that two of them may join. -/
def escapeUnits (code : Nat) : Text :=
  if code < 0x10000 then [UInt16.ofNat code] else Text.ofChar (Text.charOf code)

theorem length_dropWhile_le (cs : List Char) : (cs.dropWhile isGap).length ≤ cs.length :=
  (List.dropWhile_suffix isGap).length_le

/-- Reads up to the closing double quote, behind so many breaks and such gaps, latest first. A
backslash before a break joins the lines without a blank. -/
def doubleQuoted (breaks : Nat) (gaps : List Char) : List Char → Option (Text × List Char)
  | [] => none
  | [c] => if c = doubleQuote then some (Text.ofChars (between breaks gaps), []) else none
  | c :: e :: rest =>
    if c = '\n' then doubleQuoted (breaks + 1) [] (e :: rest)
    else if isGap c then doubleQuoted breaks (c :: gaps) (e :: rest)
    else if c = doubleQuote then some (Text.ofChars (between breaks gaps), e :: rest)
    else if c ≠ backslash then do
      let (t, rest) ← doubleQuoted 0 [] (e :: rest)
      pure (Text.ofChars (between breaks gaps ++ [c]) ++ t, rest)
    else if e = '\n' then do
      let (t, rest) ← doubleQuoted 0 [] (rest.dropWhile isGap)
      pure (Text.ofChars (between breaks gaps) ++ t, rest)
    else do
      let digits := escapeDigits e
      let units ←
        if digits = 0 then some (Text.ofChar (escape e))
        else if rest.length < digits then none
        else (Decimal.natural? 16 (rest.take digits)).map escapeUnits
      let (t, rest) ← doubleQuoted 0 [] (rest.drop digits)
      pure (Text.ofChars (between breaks gaps) ++ units ++ t, rest)
termination_by cs => cs.length
decreasing_by
  all_goals have := length_dropWhile_le rest
  all_goals simp only [List.length_cons, List.length_drop]
  all_goals omega

/-- The quoted scalar at the start of a text and what follows it, if one begins there. -/
def quoted? (cs : List Char) : Option (Option (String × List Char)) :=
  match cs with
  | [] => none
  | c :: rest =>
    if c = doubleQuote then
      some ((doubleQuoted 0 [] rest).map fun (t, rest) => (t.toString, rest))
    else if c = singleQuote then
      some ((singleQuoted rest).map fun (t, rest) => (String.ofList (fold t), rest))
    else none

end DeviceReports.Cat.Yaml
