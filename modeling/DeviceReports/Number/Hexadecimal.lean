import DeviceReports.Number.Decimal

/-!
# Hexadecimal text

The lower-case base-16 text of the integer part of a number. A negative integer is written
as the 64-bit word it leaves modulo 2^64, which negative infinity does not have.
-/

set_option autoImplicit false

namespace DeviceReports.Number

def hexDigits (n : Nat) : String := String.ofList (Nat.toDigits 16 n)

/-- The number of 64-bit words, 2^64. -/
def wordCount : Int := 18446744073709551616

/-- The base-16 text of the integer part, `none` for negative infinity. -/
def hexText? : Number → Option String
  | .infinite true => none
  | .finite q =>
    let n := Int.tdiv q.num q.den
    if n < 0 then some (hexDigits (n % wordCount).toNat) else some (hexDigits n.toNat)
  | x => some x.text

end DeviceReports.Number
