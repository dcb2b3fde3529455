import DeviceReports.Number.Decimal

/-!
# Powers of two

Two raised to a number. An integral exponent gives the power itself. Any other exponent is the
nearest integer and a rest of at most one half; the power of the rest is the exponential of its
product with ln 2, worked out in double precision: the product is formed from the leading half
of the rest and what that leaves over, and the exponential is a rational approximation. The
powers of one half and minus one half are the root of two and its inverse.
-/

set_option autoImplicit false

namespace DeviceReports.Number

/-- A number without the last 32 binary places of its significand. -/
def leading : Number → Number
  | .finite q =>
    let unit := spacing q * 4294967296
    .finite ((Int.tdiv (q / unit).num (q / unit).den : Rat) * unit)
  | x => x

/-- The integer nearest to a rational; of two equally near ones the one away from zero. -/
def nearestAway (q : Rat) : Int :=
  if q < 0 then -(1 / 2 - q).floor else (q + 1 / 2).floor

def logTwo : Number := Decimal.ofScientific 693147180559945286227 (-21)

/-- ln 2 in two parts, the first of which ends in zeros. -/
def logTwoHigh : Number := Decimal.ofScientific 693147182464599609375 (-21)

def logTwoLow : Number := -Decimal.ofScientific 190465429995776804525 (-29)

/-- The coefficients of the even part of the approximation, the constant one first. -/
def approximation : List Number :=
  [Decimal.ofScientific 166666666666666019037 (-21),
    -Decimal.ofScientific 277777777770155933842 (-23),
    Decimal.ofScientific 661375632143793436117 (-25),
    -Decimal.ofScientific 165339022054652515390 (-26),
    Decimal.ofScientific 413813679705723846039 (-28)]

/-- `t · p(t)` for the polynomial with these coefficients. -/
def timesPolynomial (t : Number) (coefficients : List Number) : Number :=
  t * coefficients.foldr (fun c rest => c + t * rest) 0

/-- e raised to a number of at most half of ln 2. -/
def exponential (x : Number) : Number :=
  let even := x - timesPolynomial (x * x) approximation
  1 - (x * even / (even - 2) - x)

/-- The product with ln 2 of what an integer leaves of an exponent. -/
def logOfRest (exponent : Number) (whole : Int) : Number :=
  let high := leading exponent
  let low := exponent - high
  let rest := high - ofInt whole
  let t := leading (low + rest)
  t * logTwoHigh + ((low - (t - rest)) * logTwo + t * logTwoLow)

def rootOfTwo : Number := Decimal.ofScientific 14142135623730951 (-16)

/-- Two to the power of a number. -/
def twoTo : Number → Number
  | .nan => .nan
  | .infinite true => .finite 0
  | .infinite false => .infinite false
  | .finite q =>
    if 1024 ≤ q then .infinite false
    else if q < -1075 then .finite 0
    else if q.den = 1 then ofRat ((2 : Rat) ^ q.num)
    else if q = 1 / 2 then rootOfTwo
    else if q = -1 / 2 then 1 / rootOfTwo
    else
      let whole := nearestAway q
      match exponential (logOfRest (.finite q) whole) with
      | .finite e => ofRat (e * (2 : Rat) ^ whole)
      | x => x

end DeviceReports.Number
