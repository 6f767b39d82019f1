import DataBind.Decimal.Shortest
import DataBind.Json.Basic
import DataBind.Text.Hex

/-!
# JSON texts

`Json.compact` writes a value without blanks, `Json.pretty` with one item a line and two columns
an indent. Strings escape the quote, the backslash and control characters, nothing else.
-/

namespace DataBind.Json

def escape (c : Char) : List Char :=
  match c with
  | '"' => ['\\', '"']
  | '\\' => ['\\', '\\']
  | '\x08' => ['\\', 'b']
  | '\t' => ['\\', 't']
  | '\n' => ['\\', 'n']
  | '\x0c' => ['\\', 'f']
  | '\r' => ['\\', 'r']
  | c =>
    if c.toNat < 0x20 then
      ['\\', 'u', '0', '0', Text.hexDigit (c.toNat / 16), Text.hexDigit c.toNat]
    else [c]

def quote (text : List Char) : List Char :=
  '"' :: text.flatMap escape ++ ['"']

def quoted (text : String) : List Char :=
  quote text.toList

def atom (text : String) : List Char :=
  text.toList

mutual

def compactChars : Json → List Char
  | null => atom "null"
  | bool true => atom "true"
  | bool false => atom "false"
  | integer value => atom (toString value)
  | float value => atom value.text
  | string text => quoted text
  | array items => '[' :: compactItems items
  | object members => '\x7b' :: compactMembers members

/-- Items and the closing bracket. -/
def compactItems : List Json → List Char
  | [] => [']']
  | [item] => compactChars item ++ [']']
  | item :: rest => compactChars item ++ ',' :: compactItems rest

def compactMembers : List (String × Json) → List Char
  | [] => ['\x7d']
  | [(key, value)] => quoted key ++ ':' :: compactChars value ++ ['\x7d']
  | (key, value) :: rest => quoted key ++ ':' :: compactChars value ++ ',' :: compactMembers rest

end

def newLine (indent : Nat) : List Char :=
  '\n' :: List.replicate (2 * indent) ' '

mutual

def prettyChars (indent : Nat) : Json → List Char
  | null => atom "null"
  | bool true => atom "true"
  | bool false => atom "false"
  | integer value => atom (toString value)
  | float value => atom value.text
  | string text => quoted text
  | array [] => ['[', ']']
  | array (item :: rest) =>
    '[' :: prettyItems (indent + 1) (item :: rest) ++ newLine indent ++ [']']
  | object [] => ['\x7b', '\x7d']
  | object (entry :: rest) =>
    '\x7b' :: prettyMembers (indent + 1) (entry :: rest) ++ newLine indent ++ ['\x7d']

/-- Each item on a line of its own. -/
def prettyItems (indent : Nat) : List Json → List Char
  | [] => []
  | [item] => newLine indent ++ prettyChars indent item
  | item :: rest => newLine indent ++ prettyChars indent item ++ ',' :: prettyItems indent rest

def prettyMembers (indent : Nat) : List (String × Json) → List Char
  | [] => []
  | [(key, value)] => newLine indent ++ quoted key ++ ':' :: ' ' :: prettyChars indent value
  | (key, value) :: rest =>
    newLine indent ++ quoted key ++ ':' :: ' ' :: prettyChars indent value ++
      ',' :: prettyMembers indent rest

end

def compact (value : Json) : String :=
  String.ofList value.compactChars

def pretty (value : Json) : String :=
  String.ofList (prettyChars 0 value)

end DataBind.Json
