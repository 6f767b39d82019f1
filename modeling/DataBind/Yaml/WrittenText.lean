import DataBind.Text.Hex
import DataBind.Yaml.Chars
import DataBind.Yaml.PlainValue
import DataBind.Yaml.Token

/-!
# How a text is written

A text is plain where it can be, quoted where it would read as another type or break the syntax,
and literal where it has a line feed. What no other style can hold is escaped in double quotes.
-/

namespace DataBind.Yaml

def beginsWithGap : List Char → Bool
  | [] => true
  | c :: _ => isGap c

/-- No plain scalar may begin like this. -/
def beginsAsIndicator (cs : List Char) : Bool :=
  match cs with
  | [] => false
  | c :: rest =>
    cs.take 3 == ['-', '-', '-'] || cs.take 3 == ['.', '.', '.'] ||
      "#,[]\x7b\x7d&*!|>'\"%@\x60".toList.contains c ||
      ((c == '?' || c == ':' || c == '-') && beginsWithGap rest)

/-- A colon that would end a key, or a hash sign that would begin a comment. -/
def hasSeparator : List Char → Bool
  | [] => false
  | c :: rest =>
    (c == ':' && beginsWithGap rest) || (isGap c && rest.head? == some '#') || hasSeparator rest

/-- Two characters in a row, one of each class. -/
def hasPair (p q : Char → Bool) : List Char → Bool
  | c :: d :: rest => (p c && q d) || hasPair p q (d :: rest)
  | _ => false

def isSpace (c : Char) : Bool := c == ' '

def isMultiline (cs : List Char) : Bool :=
  cs.any isBreak

def hasUnprintable (cs : List Char) : Bool :=
  cs.any (!isPrintable ·)

def plainAllowed (cs : List Char) : Bool :=
  !(cs.head?.any isSpace || cs.getLast?.any isSpace || isMultiline cs || hasUnprintable cs ||
    beginsAsIndicator cs || hasSeparator cs)

def singleQuotedAllowed (cs : List Char) : Bool :=
  !(hasPair isBreak isSpace cs || hasPair isSpace isBreak cs || hasUnprintable cs)

def literalAllowed (cs : List Char) : Bool :=
  !(cs.getLast?.any isSpace || hasPair isSpace isBreak cs || hasUnprintable cs)

/-- As a plain scalar the text would not be read as a text. -/
def readsAsOther (text : String) : Bool :=
  PlainValue.ofText text != .text || PlainValue.hasLeadingZero text.toList

def quotedStyle (cs : List Char) : ScalarStyle :=
  if singleQuotedAllowed cs then .singleQuoted else .doubleQuoted

def textStyle (text : String) : ScalarStyle :=
  let cs := text.toList
  if cs.contains '\n' then if literalAllowed cs then .literal else .doubleQuoted
  else if !readsAsOther text && plainAllowed cs then .plain
  else quotedStyle cs

def spaces (n : Nat) : List Char :=
  List.replicate n ' '

/-- Quotes are doubled and lines indented. -/
def singleQuotedRest (indent : Nat) (lineStart : Bool) : List Char → List Char
  | [] => spaces (if lineStart then indent else 0)
  | c :: rest =>
    if isBreak c then c :: singleQuotedRest indent true rest
    else
      spaces (if lineStart then indent else 0) ++
        (if c == '\'' then ['\'', '\''] else [c]) ++ singleQuotedRest indent false rest

def hexDigits (width n : Nat) : List Char :=
  ((List.range width).map fun i => (Text.hexDigit (n / Nat.pow 16 i)).toUpper).reverse

def escapeLetter? : Char → Option Char
  | '\x00' => some '0'
  | '\x07' => some 'a'
  | '\x08' => some 'b'
  | '\t' => some 't'
  | '\n' => some 'n'
  | '\x0b' => some 'v'
  | '\x0c' => some 'f'
  | '\r' => some 'r'
  | '\x1b' => some 'e'
  | '"' => some '"'
  | '\\' => some '\\'
  | '\x85' => some 'N'
  | '\xa0' => some '_'
  | '\u2028' => some 'L'
  | '\u2029' => some 'P'
  | _ => none

def escapeChar (c : Char) : List Char :=
  match escapeLetter? c with
  | some letter => ['\\', letter]
  | none =>
    if c.toNat ≤ 0xFF then '\\' :: 'x' :: hexDigits 2 c.toNat
    else if c.toNat ≤ 0xFFFF then '\\' :: 'u' :: hexDigits 4 c.toNat
    else '\\' :: 'U' :: hexDigits 8 c.toNat

def doubleQuotedChar (c : Char) : List Char :=
  if !isPrintable c || isBreak c || c == '"' || c == '\\' then escapeChar c else [c]

/-- The indentation digit, needed before a blank first line, and the chomping sign. -/
def literalHeader (cs : List Char) : List Char :=
  (if cs.head?.any fun c => isSpace c || isBreak c then ['2'] else []) ++
    match cs.reverse with
    | [] => ['-']
    | [c] => if isBreak c then ['+'] else ['-']
    | c :: d :: _ => if !isBreak c then ['-'] else if isBreak d then ['+'] else []

/-- Lines are indented unless they are empty. -/
def literalLines (indent : Nat) (lineStart : Bool) : List Char → List Char
  | [] => []
  | c :: rest =>
    if isBreak c then c :: literalLines indent true rest
    else spaces (if lineStart then indent else 0) ++ c :: literalLines indent false rest

/-- The text in its style, with further lines at the indent. -/
def writtenText (indent : Nat) (text : String) : List Char :=
  let cs := text.toList
  match textStyle text with
  | .plain => cs
  | .singleQuoted => '\'' :: singleQuotedRest indent false cs ++ ['\'']
  | .literal | .folded => '|' :: literalHeader cs ++ '\n' :: literalLines indent true cs
  | .doubleQuoted => '"' :: cs.flatMap doubleQuotedChar ++ ['"']

end DataBind.Yaml
