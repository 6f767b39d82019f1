import DataBind.Decimal.Binary64

/-!
# The shortest decimal of a binary value

`Binary64.shortest` gives the fewest digits that read back as the value, and of those the nearest
ones. `Binary64.text` writes them with at least one decimal, positionally where the point falls
within five zeros before and sixteen digits after the first digit, else with a signed exponent.
-/

namespace DataBind.Binary64

/-- Bounds of the reals that round to the value, its own magnitude between them, over one
denominator: four times the mantissa with one unit less and two or one more. -/
structure Interval where
  low : Nat
  value : Nat
  high : Nat
  den : Nat
  /-- The bounds themselves round to the value. -/
  closed : Bool

def interval (x : Binary64) : Interval :=
  let gap := if x.mantissa = Nat.pow 2 52 && x.exponent != leastExponent then 1 else 2
  let low := 4 * x.mantissa - gap
  let high := 4 * x.mantissa + 2
  let closed := x.mantissa % 2 == 0
  if 0 ≤ x.exponent then
    let scale := Nat.pow 2 x.exponent.toNat
    ⟨low * scale, 4 * x.mantissa * scale, high * scale, 4, closed⟩
  else ⟨low, 4 * x.mantissa, high, 4 * Nat.pow 2 (-x.exponent).toNat, closed⟩

/-- The `k` with `10 ^ (k - 1) ≤ num / den < 10 ^ k`, for `0 < num`. -/
def decimalPlace (num den : Nat) : Int :=
  if den ≤ num then (digitCount (num / den) : Int)
  else 1 - (digitCount ((den + num - 1) / num - 1) : Int)

/-- `significand * 10 ^ power` is within the interval. -/
def Interval.holds (i : Interval) (significand : Nat) (power : Int) : Bool :=
  let (num, den) :=
    if 0 ≤ power then (significand * Nat.pow 10 power.toNat * i.den, 1)
    else (significand * i.den, Nat.pow 10 (-power).toNat)
  if i.closed then i.low * den ≤ num && num ≤ i.high * den
  else i.low * den < num && num < i.high * den

/-- The nearer of the two decimals around the value that are multiples of `10 ^ power`, if it is
within the interval; else the other one. -/
def Interval.onGrid? (i : Interval) (power : Int) : Option Nat :=
  let (num, den) :=
    if 0 ≤ power then (i.value, i.den * Nat.pow 10 power.toNat)
    else (i.value * Nat.pow 10 (-power).toNat, i.den)
  let below := num / den
  let nearest := roundDiv num den
  let other := if nearest = below then below + 1 else below
  if i.holds nearest power then some nearest
  else if i.holds other power then some other
  else none

/-- Tries grids of one digit more at a time. -/
def Interval.search (i : Interval) (place : Int) : Nat → Nat → Nat × Int
  | 0, count => (i.value / i.den, place - count)
  | fuel + 1, count =>
    match i.onGrid? (place - count) with
    | some significand => (significand, place - count)
    | none => i.search place fuel (count + 1)

def dropZeros (significand : Nat) (power : Int) : Nat → Nat × Int
  | 0 => (significand, power)
  | fuel + 1 =>
    if significand % 10 = 0 then dropZeros (significand / 10) (power + 1) fuel
    else (significand, power)

/-- Significand and power of ten of a value other than zero. Seventeen digits always suffice. -/
def shortest (x : Binary64) : Nat × Int :=
  let i := x.interval
  let (significand, power) := i.search (decimalPlace i.value i.den) 17 1
  dropZeros significand power 18

def text (x : Binary64) : String :=
  let sign := if x.negative then "-" else ""
  if x.mantissa = 0 then sign ++ "0.0"
  else
    let (significand, power) := x.shortest
    let digits := Nat.toDigits 10 significand
    let point := (digits.length : Int) + power
    let zeros (n : Int) : List Char := List.replicate n.toNat '0'
    let body :=
      if 0 ≤ power && point ≤ 16 then digits ++ zeros power ++ ['.', '0']
      else if 0 < point && point ≤ 16 then digits.take point.toNat ++ '.' :: digits.drop point.toNat
      else if -5 < point && point ≤ 0 then '0' :: '.' :: zeros (-point) ++ digits
      else
        let plus := if 0 < point then ['+'] else []
        let exponent := 'e' :: plus ++ (toString (point - 1)).toList
        match digits with
        | [d] => d :: exponent
        | d :: rest => d :: '.' :: rest ++ exponent
        | [] => exponent
    sign ++ String.ofList body

end DataBind.Binary64
