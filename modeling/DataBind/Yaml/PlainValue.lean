import DataBind.Decimal.Binary64
import DataBind.Decimal.Digits
import DataBind.Text.Hex

/-!
# What a plain scalar stands for

A plain scalar is null, a truth value, a number or, if it is none of these, a text. Integers are
decimal without leading zeros, or in base 16, 8 or 2 after `0x`, `0o` or `0b`.
-/

namespace DataBind.Yaml

inductive PlainValue
  | null
  | bool (value : Bool)
  | integer (value : Int)
  | float (value : Binary64)
  /-- An infinity, or what is no number. -/
  | nonFinite
  | text
deriving DecidableEq, Repr

namespace PlainValue

def isNullWord (text : String) : Bool :=
  text == "~" || text == "null" || text == "Null" || text == "NULL"

def bool? (text : String) : Option Bool :=
  if text == "true" || text == "True" || text == "TRUE" then some true
  else if text == "false" || text == "False" || text == "FALSE" then some false
  else none

/-- Digits without a sign. -/
def magnitude? : List Char → Option Nat
  | [] => none
  | '0' :: 'x' :: c :: digits => Text.numberIn? 16 (c :: digits)
  | '0' :: 'o' :: c :: digits => Text.numberIn? 8 (c :: digits)
  | '0' :: 'b' :: c :: digits => Text.numberIn? 2 (c :: digits)
  | '0' :: _ :: _ => none
  | digits => Text.numberIn? 10 digits

/-- What 128 bits hold, with or without a sign, counts as an integer. -/
def integer? : List Char → Option Int
  | '-' :: rest => (magnitude? rest).bind fun n => if n ≤ Nat.pow 2 127 then some (-n) else none
  | '+' :: rest => (magnitude? rest).bind fun n => if n < Nat.pow 2 128 then some n else none
  | rest => (magnitude? rest).bind fun n => if n < Nat.pow 2 128 then some n else none

def withoutSign : List Char → List Char
  | '-' :: rest => rest
  | '+' :: rest => rest
  | cs => cs

/-- Digits alone, of which the first of several is a zero. -/
def hasLeadingZero (cs : List Char) : Bool :=
  match withoutSign cs with
  | '0' :: c :: digits => (c :: digits).all Char.isDigit
  | _ => false

def isInfinityWord (cs : List Char) : Bool :=
  [".inf", ".Inf", ".INF"].any fun word => word.toList == cs

def isNanWord (cs : List Char) : Bool :=
  [".nan", ".NaN", ".NAN"].any fun word => word.toList == cs

/-- Digits with a point among, before or after them or none, and an exponent or none. -/
def finite? (negative : Bool) (cs : List Char) : Option Binary64 := do
  let whole := cs.takeWhile Char.isDigit
  let rest := cs.dropWhile Char.isDigit
  let (fraction, rest) := match rest with
    | '.' :: rest => (rest.takeWhile Char.isDigit, rest.dropWhile Char.isDigit)
    | _ => ([], rest)
  guard (whole ++ fraction ≠ [])
  let (power, rest) ← Decimal.readPower? rest
  guard (rest = [])
  Binary64.ofDecimal? negative (Decimal.digitsValue (whole ++ fraction))
    (power.getD 0 - fraction.length)

/-- A number past the greatest finite one is none. -/
def float? (cs : List Char) : Option PlainValue :=
  if isInfinityWord (withoutSign cs) || isNanWord cs then some nonFinite
  else match cs with
    | '-' :: rest => (finite? true rest).map float
    | '+' :: rest => (finite? false rest).map float
    | rest => (finite? false rest).map float

def ofText (text : String) : PlainValue :=
  if text == "" || isNullWord text then null
  else match bool? text, integer? text.toList with
    | some value, _ => bool value
    | none, some value => integer value
    | none, none =>
      if hasLeadingZero text.toList then .text else (float? text.toList).getD .text

end PlainValue

end DataBind.Yaml
