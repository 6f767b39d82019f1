import DataBind.Decimal.Digits
import DataBind.Text.Hex
import DataBind.Yaml.Cursor
import DataBind.Yaml.Token

/-!
# Tags, anchors and directives

A tag is verbatim, `!<uri>`, or a handle and a tail; without a second exclamation mark the handle
is `!` and the rest is the tail. The tag `!` alone has an empty handle.
-/

namespace DataBind.Yaml

def isUriChar (verbatim : Bool) (c : Char) : Bool :=
  isWordChar c || ";/?:@&=+$.%!~*'()".toList.contains c ||
    (verbatim && (c == ',' || c == '[' || c == ']'))

def escapedOctet? : List Char → Option (Nat × List Char)
  | '%' :: a :: b :: rest => (Text.numberIn? 16 [a, b]).map fun octet => (octet, rest)
  | _ => none

def trailingOctets? : Nat → Nat → List Char → Option (Nat × List Char)
  | 0, code, cs => some (code, cs)
  | n + 1, code, cs =>
    match escapedOctet? cs with
    | some (octet, rest) =>
      if octet / 0x40 = 2 then trailingOctets? n (code * 0x40 + octet % 0x40) rest else none
    | none => none

/-- One character written as escaped octets. -/
def escapedChar? (cs : List Char) : Option (Char × List Char) := do
  let (octet, rest) ← escapedOctet? cs
  let (count, code) ←
    if octet < 0x80 then some (0, octet)
    else if octet / 0x20 = 6 then some (1, octet % 0x20)
    else if octet / 0x10 = 14 then some (2, octet % 0x10)
    else if octet / 0x08 = 30 then some (3, octet % 0x08)
    else none
  let (code, rest) ← trailingOctets? count code rest
  return (Char.ofNat code, rest)

/-- Characters of a URI and the rest. -/
def uriText? (verbatim : Bool) : Nat → List Char → Option (List Char × List Char)
  | 0, cs => some ([], cs)
  | fuel + 1, cs =>
    match cs with
    | '%' :: _ =>
      match escapedChar? cs with
      | some (c, rest) => (uriText? verbatim fuel rest).map fun (text, rest) => (c :: text, rest)
      | none => none
    | c :: rest =>
      if isUriChar verbatim c then
        (uriText? verbatim fuel rest).map fun (text, rest) => (c :: text, rest)
      else some ([], cs)
    | [] => some ([], [])

def uri? (verbatim : Bool) (cursor : Cursor) : Option (List Char × Cursor) :=
  (uriText? verbatim (cursor.rest.length + 1) cursor.rest).map fun (text, rest) =>
    (text, cursor.goTo rest)

/-- An exclamation mark, letters, and a second mark if there is one. -/
def tagHandle? (cursor : Cursor) : Option (List Char × Cursor) :=
  if cursor.seesChar '!' then
    let (word, cursor) := (cursor.advance 1).spanWhile isWordChar
    if cursor.seesChar '!' then some ('!' :: word ++ ['!'], cursor.advance 1)
    else some ('!' :: word, cursor)
  else none

def tagParts? (cursor : Cursor) : Option (List Char × List Char × Cursor) :=
  match cursor.rest with
  | _ :: '<' :: _ =>
    match uri? true (cursor.advance 2) with
    | some (tail, cursor) =>
      if tail ≠ [] && cursor.seesChar '>' then some ([], tail, cursor.advance 1) else none
    | none => none
  | _ =>
    match tagHandle? cursor with
    | none => none
    | some (handle, cursor) =>
      match uri? false cursor with
      | none => none
      | some (tail, cursor) =>
        if 1 < handle.length && handle.getLast? == some '!' then
          if tail = [] then none else some (handle, tail, cursor)
        else
          match handle.drop 1 ++ tail with
          | [] => some ([], ['!'], cursor)
          | tail => some (['!'], tail, cursor)

/-- A tag ends before a gap, within a flow collection also before a comma. -/
def tag? (flow : Bool) (cursor : Cursor) : Option (Token × Cursor) :=
  match tagParts? cursor with
  | some (handle, tail, cursor) =>
    if cursor.gapAt 0 || (flow && cursor.seesChar ',') then
      some (.tag (String.ofList handle) (String.ofList tail), cursor)
    else none
  | none => none

/-- The name after `&` or `*`. -/
def anchorName? (cursor : Cursor) : Option (String × Cursor) :=
  let (name, cursor) := (cursor.advance 1).spanWhile isWordChar
  let ends := cursor.gapAt 0 || cursor.sees ("?:,]\x7d%@\x60".toList.contains ·)
  if name ≠ [] && ends then some (String.ofList name, cursor) else none

def versionNumber? (cursor : Cursor) : Option (Nat × Cursor) :=
  let (digits, cursor) := cursor.spanWhile Char.isDigit
  if digits ≠ [] && digits.length ≤ 9 then some (Decimal.digitsValue digits, cursor) else none

def versionDirective? (cursor : Cursor) : Option (Token × Cursor) := do
  let (major, cursor) ← versionNumber? (cursor.skipWhile isBlank)
  guard (cursor.seesChar '.')
  let (minor, cursor) ← versionNumber? (cursor.advance 1)
  return (.versionDirective major minor, cursor)

def tagDirective? (cursor : Cursor) : Option (Token × Cursor) := do
  let (handle, cursor) ← tagHandle? (cursor.skipWhile isBlank)
  guard (handle = ['!'] ∨ (1 < handle.length ∧ handle.getLast? = some '!'))
  guard (cursor.sees isBlank)
  let (start, cursor) ← uri? true (cursor.skipWhile isBlank)
  guard (start ≠ [] ∧ cursor.gapAt 0)
  return (.tagDirective (String.ofList handle) (String.ofList start), cursor)

/-- A directive from its percent sign to the end of the line. -/
def directive? (cursor : Cursor) : Option (Token × Cursor) := do
  let (name, cursor) := (cursor.advance 1).spanWhile isWordChar
  guard (cursor.gapAt 0)
  let (token, cursor) ←
    if name = "YAML".toList then versionDirective? cursor
    else if name = "TAG".toList then tagDirective? cursor
    else none
  return (token, ← cursor.finishLine?)

end DataBind.Yaml
