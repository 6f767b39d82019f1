import DataBind.Decimal.Digits
import DataBind.Decimal.Scaled
import DataBind.Json.Basic
import DataBind.KeyMap
import DataBind.Text.Hex

/-!
# Reading JSON texts

`Json.read?` accepts one value with blanks around it. Members keep their order and repetitions;
`Json.sorted` orders them by key and keeps the last value of each. Numbers are read with a
significand of 64 bits, which leaves out the digits that do not fit.
-/

namespace DataBind.Json

open Decimal (appendDigit readPower?)

def isSpace (c : Char) : Bool :=
  c == ' ' || c == '\t' || c == '\n' || c == '\r'

def dropSpaces (cs : List Char) : List Char :=
  cs.dropWhile isSpace

def fourHex? (a b c d : Char) : Option Nat :=
  Text.numberIn? 16 [a, b, c, d]

/-- The letter after a backslash, for the escapes of one letter. -/
def unescape? : Char → Option Char
  | '"' => some '"'
  | '\\' => some '\\'
  | '/' => some '/'
  | 'b' => some '\x08'
  | 'f' => some '\x0c'
  | 'n' => some '\n'
  | 'r' => some '\r'
  | 't' => some '\t'
  | _ => none

def pairedChar (high low : Nat) : Char :=
  Char.ofNat (0x10000 + (high - 0xD800) * 0x400 + (low - 0xDC00))

/-- A string after its opening quote. -/
def readString : List Char → Option (List Char × List Char)
  | [] => none
  | '"' :: rest => some ([], rest)
  | '\\' :: 'u' :: a :: b :: c :: d :: '\\' :: 'u' :: e :: f :: g :: h :: rest =>
    match fourHex? a b c d, fourHex? e f g h with
    | some high, some low =>
      if 0xD800 ≤ high && high < 0xDC00 then
        if 0xDC00 ≤ low && low < 0xE000 then
          (readString rest).map fun (text, rest) => (pairedChar high low :: text, rest)
        else none
      else if 0xDC00 ≤ high && high < 0xE000 then none
      else
        (readString ('\\' :: 'u' :: e :: f :: g :: h :: rest)).map fun (text, rest) =>
          (Char.ofNat high :: text, rest)
    | _, _ => none
  | '\\' :: 'u' :: a :: b :: c :: d :: rest =>
    match fourHex? a b c d with
    | some code =>
      if 0xD800 ≤ code && code < 0xE000 then none
      else (readString rest).map fun (text, rest) => (Char.ofNat code :: text, rest)
    | none => none
  | '\\' :: c :: rest =>
    match unescape? c with
    | some c => (readString rest).map fun (text, rest) => (c :: text, rest)
    | none => none
  | c :: rest =>
    if c = '\\' || c.toNat < 0x20 then none
    else (readString rest).map fun (text, rest) => (c :: text, rest)

/-- Appends digits to a significand up to the first that takes it past 64 bits, and counts the
digits that are left. -/
def appendDigits (significand : Nat) : List Char → Nat × Nat
  | [] => (significand, 0)
  | c :: rest =>
    let next := appendDigit significand c
    if next < Nat.pow 2 64 then appendDigits next rest else (significand, rest.length + 1)

/-- An integer in range stays one, save for a negative zero. Digits that are left out count as zeros
before the point and not at all after it. -/
def number? (negative : Bool) (whole fraction : List Char) (power : Option Int) : Option Json :=
  let (integral, left) := appendDigits 0 whole
  let value : Int := if negative then -(integral : Int) else integral
  if fraction = [] && power.isNone && left = 0 && isInteger value && !(negative && value == 0) then
    some (integer value)
  else
    let (significand, unused) := appendDigits integral fraction
    let places := fraction.length - unused
    (Binary64.scaled? negative significand (power.getD 0 + left - places)).map float

def readNumber (cs : List Char) : Option (Json × List Char) := do
  let (negative, cs) := match cs with
    | '-' :: rest => (true, rest)
    | _ => (false, cs)
  let whole := cs.takeWhile Char.isDigit
  let cs := cs.dropWhile Char.isDigit
  guard (whole ≠ [] ∧ (whole.length = 1 ∨ whole.head? ≠ some '0'))
  let (fraction, cs) ← match cs with
    | '.' :: rest =>
      match rest.takeWhile Char.isDigit with
      | [] => none
      | digits => some (digits, rest.dropWhile Char.isDigit)
    | _ => some ([], cs)
  let (power, cs) ← readPower? cs
  let value ← number? negative whole fraction power
  return (value, cs)

mutual

/-- Each step down takes one unit of fuel. -/
def readValue : Nat → List Char → Option (Json × List Char)
  | 0, _ => none
  | fuel + 1, cs =>
    match dropSpaces cs with
    | 'n' :: 'u' :: 'l' :: 'l' :: rest => some (null, rest)
    | 't' :: 'r' :: 'u' :: 'e' :: rest => some (bool true, rest)
    | 'f' :: 'a' :: 'l' :: 's' :: 'e' :: rest => some (bool false, rest)
    | '"' :: rest => (readString rest).map fun (text, rest) => (string (String.ofList text), rest)
    | '[' :: rest =>
      match dropSpaces rest with
      | ']' :: rest => some (array [], rest)
      | _ => (readItems fuel rest).map fun (items, rest) => (array items, rest)
    | '\x7b' :: rest =>
      match dropSpaces rest with
      | '\x7d' :: rest => some (object [], rest)
      | _ => (readMembers fuel rest).map fun (members, rest) => (object members, rest)
    | cs => readNumber cs

def readItems : Nat → List Char → Option (List Json × List Char)
  | 0, _ => none
  | fuel + 1, cs =>
    match readValue fuel cs with
    | none => none
    | some (item, rest) =>
      match dropSpaces rest with
      | ']' :: rest => some ([item], rest)
      | ',' :: rest => (readItems fuel rest).map fun (items, rest) => (item :: items, rest)
      | _ => none

def readMembers : Nat → List Char → Option (List (String × Json) × List Char)
  | 0, _ => none
  | fuel + 1, cs =>
    match dropSpaces cs with
    | '"' :: rest =>
      match readString rest with
      | none => none
      | some (key, rest) =>
        match dropSpaces rest with
        | ':' :: rest =>
          match readValue fuel rest with
          | none => none
          | some (value, rest) =>
            let entry := (String.ofList key, value)
            match dropSpaces rest with
            | '\x7d' :: rest => some ([entry], rest)
            | ',' :: rest =>
              (readMembers fuel rest).map fun (members, rest) => (entry :: members, rest)
            | _ => none
        | _ => none
    | _ => none

end

def read? (text : String) : Option Json :=
  let cs := text.toList
  match readValue (cs.length + 1) cs with
  | some (value, rest) => if (dropSpaces rest).isEmpty then some value else none
  | none => none

mutual

def sorted : Json → Json
  | array items => array (sortedItems items)
  | object members => object (KeyMap.ofList (sortedMembers members)).entries
  | value => value

def sortedItems : List Json → List Json
  | [] => []
  | item :: rest => sorted item :: sortedItems rest

def sortedMembers : List (String × Json) → List (String × Json)
  | [] => []
  | (key, value) :: rest => (key, sorted value) :: sortedMembers rest

end

end DataBind.Json
