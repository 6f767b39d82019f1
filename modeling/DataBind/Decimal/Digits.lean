/-!
# Reading decimal digits
-/

namespace DataBind.Decimal

def appendDigit (value : Nat) (digit : Char) : Nat :=
  10 * value + (digit.toNat - '0'.toNat)

def digitsValue (digits : List Char) : Nat :=
  digits.foldl appendDigit 0

/-- An exponent with its letter, or nothing if there is none; fails on a letter without digits. -/
def readPower? (cs : List Char) : Option (Option Int × List Char) :=
  let finish (negative : Bool) (cs : List Char) : Option (Option Int × List Char) :=
    match cs.takeWhile Char.isDigit with
    | [] => none
    | digits =>
      let value : Int := digitsValue digits
      some (some (if negative then -value else value), cs.dropWhile Char.isDigit)
  match cs with
  | c :: '+' :: rest => if c = 'e' || c = 'E' then finish false rest else some (none, cs)
  | c :: '-' :: rest => if c = 'e' || c = 'E' then finish true rest else some (none, cs)
  | c :: rest => if c = 'e' || c = 'E' then finish false rest else some (none, cs)
  | [] => some (none, [])

end DataBind.Decimal
