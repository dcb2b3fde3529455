import DeviceReports.Number

/-!
# Decimal text

The text of a number has the fewest significant digits that still read back as the same
number, and of those digits the nearest to it. It is written positionally while the point
lies within 21 places of the first digit on the right and 6 on the left, and with an
exponent outside that range.
-/

set_option autoImplicit false

namespace DeviceReports.Decimal

/-- A decimal figure `digits · 10^exponent`. -/
structure Figure where
  digits : Nat
  exponent : Int
deriving DecidableEq, Repr

def Figure.value (f : Figure) : Rat := (f.digits : Rat) * (10 : Rat) ^ f.exponent

/-- The figure without its trailing zeros; `steps` bounds how many are dropped. -/
def Figure.stripped : Nat → Figure → Figure
  | 0, f => f
  | steps + 1, f =>
    if f.digits ≠ 0 ∧ f.digits % 10 = 0 then
      Figure.stripped steps ⟨f.digits / 10, f.exponent + 1⟩
    else f

def digitCount (n : Nat) : Nat := (Nat.toDigits 10 n).length

/-- `⌊log₁₀ q⌋` of a positive rational. -/
def decimalExponent (q : Rat) : Int :=
  let n := q.num.natAbs
  let d : Int := (digitCount n : Int) - (digitCount q.den : Int)
  if n * Nat.pow 10 (-d).toNat < q.den * Nat.pow 10 d.toNat then d - 1 else d

/-- The rationals that round to one positive number. -/
structure Interval where
  low : Rat
  high : Rat
  closed : Bool

def Interval.contains (i : Interval) (q : Rat) : Bool :=
  if i.closed then decide (i.low ≤ q) && decide (q ≤ i.high)
  else decide (i.low < q) && decide (q < i.high)

/-- The interval around a positive number: half the way to each neighbour, the ends included
when the significand is even. Below a power of two the neighbours lie twice as close. -/
def roundingInterval (v : Rat) : Interval :=
  let unit := Number.spacing v
  let significand := v / unit
  let lowGap :=
    if significand = (2 : Rat) ^ (52 : Nat) ∧ Number.spacing (v / 2) < unit then unit / 4
    else unit / 2
  { low := v - lowGap, high := v + unit / 2, closed := significand.num % 2 == 0 }

/-- The figure with `count` digits nearest to `v` among those that read back as `v`. -/
def figureWith (v : Rat) (i : Interval) (count : Nat) : Option Figure :=
  let exponent := decimalExponent v + 1 - count
  let grid := (10 : Rat) ^ exponent
  let n := (v / grid).floor.toNat
  let lower : Figure := ⟨n, exponent⟩
  let upper : Figure := ⟨n + 1, exponent⟩
  match i.contains lower.value, i.contains upper.value with
  | false, false => none
  | true, false => some lower
  | false, true => some upper
  | true, true =>
    let down := v - lower.value
    let up := upper.value - v
    if down < up then some lower
    else if up < down then some upper
    else if n % 2 = 0 then some lower else some upper

/-- The shortest figure that reads back as the positive number `v`. -/
def shortest (v : Rat) : Figure :=
  let i := roundingInterval v
  let found := (List.range 17).findSome? fun k => figureWith v i (k + 1)
  match found with
  | some f => f.stripped 20
  | none => ⟨v.floor.toNat, 0⟩

def zeros (n : Nat) : List Char := List.replicate n '0'

/-- Writes a figure: positionally from 10^-6 up to below 10^21, else with an exponent. -/
def Figure.layout (f : Figure) : List Char :=
  let ds := Nat.toDigits 10 f.digits
  let point : Int := (ds.length : Int) + f.exponent
  if (ds.length : Int) ≤ point ∧ point ≤ 21 then ds ++ zeros f.exponent.toNat
  else if 0 < point ∧ point ≤ 21 then ds.take point.toNat ++ '.' :: ds.drop point.toNat
  else if -6 < point ∧ point ≤ 0 then '0' :: '.' :: (zeros (-point).toNat ++ ds)
  else
    let mantissa := match ds with
      | d :: rest@(_ :: _) => d :: '.' :: rest
      | _ => ds
    let sign := if point - 1 < 0 then '-' else '+'
    mantissa ++ 'e' :: sign :: Nat.toDigits 10 (point - 1).natAbs

/-- The text of a rational that is a number's value. An integer that has a value of its own
needs all its digits. -/
def text (q : Rat) : List Char :=
  let sign := if q < 0 then ['-'] else []
  if q.den = 1 ∧ q.num.natAbs ≤ Number.exactBound then sign ++ Nat.toDigits 10 q.num.natAbs
  else sign ++ (shortest q.abs).layout

/-- The number nearest to `m · 10^e`. Magnitudes far outside the range are settled by their
digit count alone. -/
def ofScientific (m : Nat) (e : Int) : Number :=
  let place := (digitCount m : Int) + e
  if m = 0 ∨ place < -400 then .finite 0
  else if 400 < place then .infinite false
  else Number.ofRat (⟨m, e⟩ : Figure).value

def digit? (base : Nat) (c : Char) : Option Nat :=
  let n :=
    if c.isDigit then c.toNat - '0'.toNat
    else if 'a' ≤ c ∧ c ≤ 'z' then c.toNat - 'a'.toNat + 10
    else if 'A' ≤ c ∧ c ≤ 'Z' then c.toNat - 'A'.toNat + 10
    else base
  if n < base then some n else none

/-- The natural number that digits of a base denote; `none` if some character is no digit. -/
def natural? (base : Nat) (cs : List Char) : Option Nat :=
  cs.foldl (fun acc c => do pure ((← acc) * base + (← digit? base c))) (some 0)

/-- The exponent part of a literal: nothing, or `e` with an optional sign and digits. -/
def exponent? : List Char → Option Int
  | [] => some 0
  | c :: cs =>
    if c = 'e' ∨ c = 'E' then
      match cs with
      | '-' :: ds => if ds.isEmpty then none else (natural? 10 ds).map fun n => -(n : Int)
      | '+' :: ds => if ds.isEmpty then none else (natural? 10 ds).map fun n => (n : Int)
      | ds => if ds.isEmpty then none else (natural? 10 ds).map fun n => (n : Int)
    else none

/-- An unsigned literal: digits with an optional point before, among or after them, and an
optional exponent. -/
def unsigned? (cs : List Char) : Option Number :=
  let whole := cs.takeWhile Char.isDigit
  let rest := cs.dropWhile Char.isDigit
  let (fraction, rest) := match rest with
    | '.' :: r => (r.takeWhile Char.isDigit, r.dropWhile Char.isDigit)
    | r => ([], r)
  if whole.isEmpty && fraction.isEmpty then none
  else do
    let e ← exponent? rest
    let m ← natural? 10 (whole ++ fraction)
    pure (ofScientific m (e - fraction.length))

end DeviceReports.Decimal

namespace DeviceReports.Number

/-- The decimal text of a number; the values that are no reals are written as words. -/
def text : Number → String
  | .nan => "NaN"
  | .infinite true => "-Infinity"
  | .infinite false => "Infinity"
  | .finite q => String.ofList (Decimal.text q)

end DeviceReports.Number
