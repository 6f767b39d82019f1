import DataBind.Decimal.Binary64

/-!
# Decimals by rounded powers of ten

`Binary64.scaled?` rounds the significand of a decimal, then multiplies or divides it by a rounded
power of ten and rounds again. Every step is nearest to its own exact result, so that the last digit
of the whole may be off by one where `Binary64.ofDecimal?` is exact.
-/

namespace DataBind.Binary64

/-- The magnitude as an exact ratio. -/
def ratio (x : Binary64) : Nat × Nat :=
  inUnits x.mantissa 1 (-x.exponent)

/-- The product, or nothing if that is past the greatest value. -/
def mul? (x y : Binary64) : Option Binary64 :=
  let (a, b) := x.ratio
  let (c, d) := y.ratio
  ofRatio? (x.negative != y.negative) (a * c) (b * d)

/-- The quotient by a value other than zero, or nothing if that is past the greatest value. -/
def div? (x y : Binary64) : Option Binary64 :=
  let (a, b) := x.ratio
  let (c, d) := y.ratio
  ofRatio? (x.negative != y.negative) (a * d) (b * c)

/-- The greatest power of ten within range. -/
def greatestPower : Nat := 308

def powerOfTen? (power : Nat) : Option Binary64 :=
  if power ≤ greatestPower then ofRatio? false (Nat.pow 10 power) 1 else none

def mulPower? (x : Binary64) (power : Nat) : Option Binary64 :=
  (powerOfTen? power).bind x.mul?

def divPower? (x : Binary64) (power : Nat) : Option Binary64 :=
  (powerOfTen? power).bind x.div?

/-- The value of a significand of 64 bits times a power of ten, or nothing if that is past the
greatest value. A power too small for one division takes two, and any smaller one gives zero. -/
def scaled? (negative : Bool) (significand : Nat) (power : Int) : Option Binary64 :=
  if significand = 0 then some (zero negative)
  else (ofRatio? negative significand 1).bind fun x =>
    if 0 ≤ power then x.mulPower? power.toNat
    else
      let places := (-power).toNat
      if places ≤ greatestPower then x.divPower? places
      else if places ≤ 2 * greatestPower then
        (x.divPower? greatestPower).bind fun x => x.divPower? (places - greatestPower)
      else some (zero negative)

end DataBind.Binary64
