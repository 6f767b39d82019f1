/-!
# Binary floating point of 64 bits

A finite value is `mantissa * 2 ^ exponent` with a sign. `ofRatio?` rounds an exact ratio to the
nearest value, a half to the even mantissa, and `ofDecimal?` does so for a decimal with an exponent.
-/

namespace DataBind

/-- Either the mantissa has 53 bits or the exponent is the least one, `-1074`. -/
structure Binary64 where
  negative : Bool
  mantissa : Nat
  exponent : Int
deriving DecidableEq, Repr

namespace Binary64

def leastExponent : Int := -1074

def greatestExponent : Int := 971

def zero (negative : Bool) : Binary64 := ⟨negative, 0, leastExponent⟩

/-- The quotient rounded to nearest, a half to even. -/
def roundDiv (num den : Nat) : Nat :=
  let quotient := num / den
  let twice := 2 * (num % den)
  if twice < den || (twice == den && quotient % 2 == 0) then quotient else quotient + 1

/-- `num / den` in units of `2 ^ exponent`, as a ratio. -/
def inUnits (num den : Nat) (exponent : Int) : Nat × Nat :=
  if 0 ≤ exponent then (num, den * Nat.pow 2 exponent.toNat)
  else (num * Nat.pow 2 (-exponent).toNat, den)

/-- The value nearest to `num / den`, or nothing if that is past the greatest one. -/
def ofRatio? (negative : Bool) (num den : Nat) : Option Binary64 :=
  if num = 0 then some (zero negative)
  else
    let guess := max leastExponent ((Nat.log2 num : Int) - (Nat.log2 den : Int) - 53)
    let (n, d) := inUnits num den guess
    let exponent := if n / d < Nat.pow 2 53 then guess else guess + 1
    let (n, d) := inUnits num den exponent
    let mantissa := roundDiv n d
    let (mantissa, exponent) :=
      if mantissa = Nat.pow 2 53 then (Nat.pow 2 52, exponent + 1) else (mantissa, exponent)
    if exponent ≤ greatestExponent then some ⟨negative, mantissa, exponent⟩ else none

def digitCount (n : Nat) : Nat :=
  (Nat.toDigits 10 n).length

/-- The value nearest to `significand * 10 ^ power`. Powers that are far out of range are settled
without computing them. -/
def ofDecimal? (negative : Bool) (significand : Nat) (power : Int) : Option Binary64 :=
  let magnitude := (digitCount significand : Int) + power
  if significand = 0 || magnitude < -330 then some (zero negative)
  else if magnitude > 320 then none
  else if 0 ≤ power then ofRatio? negative (significand * Nat.pow 10 power.toNat) 1
  else ofRatio? negative significand (Nat.pow 10 (-power).toNat)

end Binary64

end DataBind
