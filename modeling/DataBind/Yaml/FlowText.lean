import DataBind.Text.Hex
import DataBind.Yaml.Cursor

/-!
# Plain and quoted scalars

Both are words with gaps between them. A gap without a line break stands for itself; of one with
line breaks the blanks are dropped, a single line feed is folded into a space and further line
breaks are kept.
-/

namespace DataBind.Yaml

structure Gap where
  blanks : List Char
  /-- A line break has been seen, or escaped. -/
  broken : Bool
  firstBreak : List Char
  moreBreaks : List Char
deriving DecidableEq, Repr

namespace Gap

def none : Gap := ⟨[], false, [], []⟩

/-- The gap after an escaped line break. -/
def escaped : Gap := ⟨[], true, [], []⟩

def addBreak (gap : Gap) (text : List Char) : Gap :=
  if gap.broken then { gap with moreBreaks := gap.moreBreaks ++ text }
  else ⟨[], true, text, []⟩

/-- What the gap contributes to the scalar. -/
def text (gap : Gap) : List Char :=
  if gap.broken then
    if gap.firstBreak = ['\n'] then
      if gap.moreBreaks = [] then [' '] else gap.moreBreaks
    else gap.firstBreak ++ gap.moreBreaks
  else gap.blanks

/-- Reads on over blanks and line breaks. A tab before the column `tabLimit` of a further line is
refused. -/
def read (tabLimit : Nat) : Nat → Gap → Cursor → Option (Gap × Cursor)
  | 0, gap, cursor => some (gap, cursor)
  | fuel + 1, gap, cursor =>
    match cursor.rest with
    | [] => some (gap, cursor)
    | c :: _ =>
      if isBlank c then
        if !gap.broken then
          read tabLimit fuel { gap with blanks := gap.blanks ++ [c] } (cursor.advance 1)
        else if c == '\t' && cursor.column < tabLimit then Option.none
        else read tabLimit fuel gap (cursor.advance 1)
      else if isBreak c then
        let (text, cursor) := cursor.takeBreak
        read tabLimit fuel (gap.addBreak text) cursor
      else some (gap, cursor)

end Gap

/-! ### Plain scalars -/

def isFlowIndicator (c : Char) : Bool :=
  c == ',' || c == '[' || c == ']' || c == '\x7b' || c == '\x7d'

/-- A run of characters of a plain scalar. A colon ends it before a gap; within a flow collection
its indicators end it too, and a colon before one of them is refused. -/
def plainWord? (flow : Bool) : List Char → Option (List Char)
  | [] => some []
  | c :: rest =>
    let follows (p : Char → Bool) : Bool := match rest with
      | next :: _ => p next
      | [] => false
    if isGap c then some []
    else if flow && c == ':' && follows (fun next => isFlowIndicator next || next == '?') then none
    else if c == ':' && (rest.isEmpty || follows isGap) then some []
    else if flow && isFlowIndicator c then some []
    else (plainWord? flow rest).map (c :: ·)

/-- The rest of a plain scalar, whether a line break ended it, and where. `indent` is the least
column of its further lines. -/
def plainRest? (flow : Bool) (indent : Nat) :
    Nat → Gap → Cursor → Option (List Char × Bool × Cursor)
  | 0, gap, cursor => some ([], gap.broken, cursor)
  | fuel + 1, gap, cursor =>
    if cursor.seesDocumentMarker || cursor.seesChar '#' then some ([], gap.broken, cursor)
    else match plainWord? flow cursor.rest with
      | none => none
      | some word =>
        let text := if word = [] then [] else gap.text ++ word
        let gap := if word = [] then gap else Gap.none
        let cursor := cursor.advance word.length
        if !cursor.sees isGap then some (text, gap.broken, cursor)
        else match gap.read indent (cursor.rest.length + 1) cursor with
          | none => none
          | some (gap, cursor) =>
            if !flow && cursor.column < indent then some (text, gap.broken, cursor)
            else (plainRest? flow indent fuel gap cursor).map fun (tail, outcome) =>
              (text ++ tail, outcome)

def plainScalar? (flow : Bool) (indent : Nat) (cursor : Cursor) :
    Option (List Char × Bool × Cursor) :=
  plainRest? flow indent (cursor.rest.length + 1) Gap.none cursor

/-! ### Quoted scalars -/

/-- A run of characters within single quotes, where two quotes are one, and the rest. -/
def singleWord : List Char → List Char × List Char
  | [] => ([], [])
  | '\'' :: '\'' :: rest =>
    let (word, rest) := singleWord rest
    ('\'' :: word, rest)
  | c :: rest =>
    if isGap c || c == '\'' then ([], c :: rest)
    else
      let (word, rest) := singleWord rest
      (c :: word, rest)

/-- The letter after a backslash, for the escapes of one letter. -/
def unescape? : Char → Option Char
  | '0' => some '\x00'
  | 'a' => some '\x07'
  | 'b' => some '\x08'
  | 't' => some '\t'
  | '\t' => some '\t'
  | 'n' => some '\n'
  | 'v' => some '\x0b'
  | 'f' => some '\x0c'
  | 'r' => some '\r'
  | 'e' => some '\x1b'
  | ' ' => some ' '
  | '"' => some '"'
  | '/' => some '/'
  | '\\' => some '\\'
  | 'N' => some '\x85'
  | '_' => some '\xa0'
  | 'L' => some '\u2028'
  | 'P' => some '\u2029'
  | _ => none

def charOfHex? (digits : List Char) : Option Char := do
  let code ← Text.numberIn? 16 digits
  if code.isValidChar then some (Char.ofNat code) else none

/-- A run of characters within double quotes, the rest, and whether an escaped line break ended
it; the rest then begins with the backslash. -/
def doubleWord? : List Char → Option (List Char × List Char × Bool)
  | [] => some ([], [], false)
  | '\\' :: c :: rest =>
    if isBreak c then some ([], '\\' :: c :: rest, true)
    else match c, rest with
      | 'x', a :: b :: rest =>
        after? (charOfHex? [a, b]) (doubleWord? rest)
      | 'u', a :: b :: c :: d :: rest =>
        after? (charOfHex? [a, b, c, d]) (doubleWord? rest)
      | 'U', a :: b :: c :: d :: e :: f :: g :: h :: rest =>
        after? (charOfHex? [a, b, c, d, e, f, g, h]) (doubleWord? rest)
      | c, rest => after? (unescape? c) (doubleWord? rest)
  | c :: rest =>
    if isGap c || c == '"' then some ([], c :: rest, false)
    else if c == '\\' then none
    else after? (some c) (doubleWord? rest)
where
  after? (c : Option Char) (tail : Option (List Char × List Char × Bool)) :
      Option (List Char × List Char × Bool) :=
    match c, tail with
    | some c, some (word, outcome) => some (c :: word, outcome)
    | _, _ => none

/-- A word, the cursor after it, and the gap that begins there if a line break was escaped. -/
def quotedWord? (single : Bool) (cursor : Cursor) : Option (List Char × Gap × Cursor) :=
  if single then
    let (word, rest) := singleWord cursor.rest
    some (word, Gap.none, cursor.goTo rest)
  else match doubleWord? cursor.rest with
    | none => none
    | some (word, rest, false) => some (word, Gap.none, cursor.goTo rest)
    | some (word, rest, true) =>
      some (word, Gap.escaped, ((cursor.goTo rest).advance 1).takeBreak.2)

/-- The rest of a quoted scalar and the cursor after its closing quote. -/
def quotedRest? (single : Bool) : Nat → Cursor → Option (List Char × Cursor)
  | 0, _ => none
  | fuel + 1, cursor =>
    if cursor.seesDocumentMarker || cursor.atEnd then none
    else match quotedWord? single cursor with
      | none => none
      | some (word, gap, cursor) =>
        if cursor.seesChar (if single then '\'' else '"') then some (word, cursor.advance 1)
        else match gap.read 0 (cursor.rest.length + 1) cursor with
          | none => none
          | some (gap, cursor) =>
            (quotedRest? single fuel cursor).map fun (tail, cursor) =>
              (word ++ gap.text ++ tail, cursor)

/-- A quoted scalar from its opening quote on. -/
def quotedScalar? (single : Bool) (cursor : Cursor) : Option (List Char × Cursor) :=
  quotedRest? single (cursor.rest.length + 1) (cursor.advance 1)

end DataBind.Yaml
