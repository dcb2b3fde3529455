/-!
# Double-precision figures

Every figure of a device is a double-precision number. A finite one is kept as the
rational it denotes, so integers stay exact; each arithmetic result is rounded to the
nearest value with a 53-bit significand, ties going to the even one. The sign of zero is
not kept: no output of the library depends on it.
-/

set_option autoImplicit false

namespace DeviceReports

inductive Number where
  | nan
  | infinite (negative : Bool)
  | finite (value : Rat)
deriving DecidableEq, Repr

namespace Number

instance : Inhabited Number := ⟨.finite 0⟩

/-- The bound 2^53, up to which every integer has a value of its own. -/
def exactBound : Nat := 9007199254740992

/-- `⌊log₂ |q|⌋` of a nonzero rational. -/
def binaryExponent (q : Rat) : Int :=
  let n := q.num.natAbs
  let k : Int := (n.log2 : Int) - (q.den.log2 : Int)
  if n * Nat.pow 2 (-k).toNat < q.den * Nat.pow 2 k.toNat then k - 1 else k

/-- The integer nearest to `q`; of two equally near ones the even one. -/
def nearestEven (q : Rat) : Int :=
  let below := q.floor
  let rest := q - (below : Rat)
  if rest < 1 / 2 then below
  else if 1 / 2 < rest then below + 1
  else if below % 2 = 0 then below else below + 1

/-- The distance between neighbouring values around `q`. -/
def spacing (q : Rat) : Rat := (2 : Rat) ^ (max (binaryExponent q - 52) (-1074))

/-- The value nearest to a rational: integers up to 2^53 are values themselves. -/
def ofRat (q : Rat) : Number :=
  if q.den = 1 ∧ q.num.natAbs ≤ exactBound then .finite q
  else
    let rounded := (nearestEven (q / spacing q) : Rat) * spacing q
    if (2 : Rat) ^ (1024 : Nat) ≤ rounded.abs then .infinite (decide (q < 0)) else .finite rounded

def ofInt (n : Int) : Number := ofRat (n : Rat)

def ofNat (n : Nat) : Number := ofRat (n : Rat)

/-- A count of things, which is never so large that it would be rounded. -/
def ofCount (n : Nat) : Number := .finite (n : Rat)

instance (n : Nat) : OfNat Number n := ⟨ofNat n⟩

instance : Coe Nat Number := ⟨ofNat⟩

def isNegative : Number → Bool
  | .nan => false
  | .infinite negative => negative
  | .finite q => decide (q < 0)

def neg : Number → Number
  | .nan => .nan
  | .infinite negative => .infinite (!negative)
  | .finite q => .finite (-q)

/-- The sum before it is rounded. -/
def exactSum : Number → Number → Number
  | .nan, _ | _, .nan => .nan
  | .infinite a, .infinite b => if a = b then .infinite a else .nan
  | .infinite a, .finite _ => .infinite a
  | .finite _, .infinite b => .infinite b
  | .finite a, .finite b => .finite (a + b)

/-- The difference before it is rounded. -/
def exactDifference (a b : Number) : Number := exactSum a (neg b)

def rounded : Number → Number
  | .finite q => ofRat q
  | x => x

def add (a b : Number) : Number := (exactSum a b).rounded

def sub (a b : Number) : Number := add a (neg b)

def mul : Number → Number → Number
  | .nan, _ | _, .nan => .nan
  | .infinite a, .infinite b => .infinite (a != b)
  | .infinite a, .finite b => if b = 0 then .nan else .infinite (a != decide (b < 0))
  | .finite a, .infinite b => if a = 0 then .nan else .infinite (b != decide (a < 0))
  | .finite a, .finite b => ofRat (a * b)

def div : Number → Number → Number
  | .nan, _ | _, .nan => .nan
  | .infinite _, .infinite _ => .nan
  | .infinite a, .finite b => .infinite (a != decide (b < 0))
  | .finite _, .infinite _ => .finite 0
  | .finite a, .finite b =>
    if b = 0 then (if a = 0 then .nan else .infinite (decide (a < 0))) else ofRat (a / b)

instance : Neg Number := ⟨neg⟩
instance : Add Number := ⟨add⟩
instance : Sub Number := ⟨sub⟩
instance : Mul Number := ⟨mul⟩
instance : Div Number := ⟨div⟩

/-- The strict order; nothing is below or above `nan`. -/
def below : Number → Number → Bool
  | .nan, _ | _, .nan => false
  | .infinite a, .infinite b => a && !b
  | .infinite a, .finite _ => a
  | .finite _, .infinite b => !b
  | .finite a, .finite b => decide (a < b)

/-- The order with equality; `nan` is not even equal to itself. -/
def atMost : Number → Number → Bool
  | .nan, _ | _, .nan => false
  | .infinite a, .infinite b => a || !b
  | .infinite a, .finite _ => a
  | .finite _, .infinite b => !b
  | .finite a, .finite b => decide (a ≤ b)

instance : LT Number := ⟨fun a b => below a b = true⟩
instance : LE Number := ⟨fun a b => atMost a b = true⟩

instance (a b : Number) : Decidable (a < b) := inferInstanceAs (Decidable (below a b = true))
instance (a b : Number) : Decidable (a ≤ b) := inferInstanceAs (Decidable (atMost a b = true))

/-- The lesser of two numbers; not a number where either is none. -/
def lesser : Number → Number → Number
  | .nan, _ | _, .nan => .nan
  | a, b => if a ≤ b then a else b

/-- Drops the fraction, toward zero. -/
def trunc : Number → Number
  | .finite q => .finite (Int.tdiv q.num q.den : Int)
  | x => x

def floor : Number → Number
  | .finite q => .finite (q.floor : Int)
  | x => x

/-- The integer a number is, if it is one. -/
def integer? : Number → Option Int
  | .finite q => if q.den = 1 then some q.num else none
  | _ => none

/-- The integer left after dropping the fraction; `nan` counts as zero, and the infinities
have none. -/
def whole? : Number → Option Int
  | .nan => some 0
  | .infinite _ => none
  | .finite q => some (Int.tdiv q.num q.den)

def isInteger (x : Number) : Bool := x.integer?.isSome

/-- The natural number that a non-negative integer below `exactBound` is. Every such integer
is a number of its own, and so are its neighbours. -/
def count? (x : Number) : Option Nat :=
  match x.integer? with
  | some n => if 0 ≤ n ∧ n.natAbs < exactBound then some n.toNat else none
  | none => none

/-- The place among `size` places that a number names: its integer part, counted from the end
where that is negative. -/
def position (size : Nat) (x : Number) : Nat :=
  match x.whole? with
  | some n => if n < 0 then size - n.natAbs else min n.toNat size
  | none => if x.isNegative then 0 else size

/-- The signed 32-bit word that the integer part leaves modulo 2^32. -/
def word32 : Number → Int32
  | .finite q => Int32.ofInt (Int.tdiv q.num q.den)
  | _ => 0

/-- Whether `x` is an integral multiple of `w`. -/
def isMultipleOf : Number → Number → Bool
  | .finite a, .finite b => b ≠ 0 && (a / b).den == 1
  | .finite a, .infinite _ => a == 0
  | _, _ => false

end Number

end DeviceReports
