import DataBind.Yaml.WrittenText

/-!
# Block style

A `Tree` holds texts, sequences and mappings of texts. In block style a line is an item or a pair,
collections are two columns further in than what holds them, a sequence under a key is not, and a
collection as an item begins on the line of its dash.
-/

namespace DataBind.Yaml

inductive Tree
  | text (value : String)
  | sequence (items : List Tree)
  | mapping (pairs : List (String × Tree))

namespace Tree

/-- A literal text may have ended its line already. -/
def endLine (cs : List Char) : List Char :=
  if cs.getLast?.any isBreak then cs else cs ++ ['\n']

/-- Longer keys and those of several lines have an indicator of their own. -/
def isSimpleKey (key : String) : Bool :=
  !isMultiline key.toList && key.utf8ByteSize ≤ 128

/-- A key with its indicators, up to its colon. -/
def keyChars (indent : Nat) (key : String) : List Char :=
  let written := writtenText (indent + 2) key
  if isSimpleKey key then written ++ [':']
  else '?' :: ' ' :: endLine written ++ spaces indent ++ [':']

mutual

/-- What stands after a dash or a colon at the indent, up to the end of the line or lines. Under a
simple key, a collection begins on a line of its own. -/
def nodeChars (indent : Nat) (simpleKey : Bool) : Tree → List Char
  | text value => ' ' :: endLine (writtenText (indent + 2) value)
  | sequence [] => [' ', '[', ']', '\n']
  | mapping [] => [' ', '\x7b', '\x7d', '\n']
  | sequence (item :: rest) =>
    if simpleKey then '\n' :: spaces indent ++ itemsChars indent (item :: rest)
    else ' ' :: itemsChars (indent + 2) (item :: rest)
  | mapping (pair :: rest) =>
    if simpleKey then '\n' :: spaces (indent + 2) ++ pairsChars (indent + 2) (pair :: rest)
    else ' ' :: pairsChars (indent + 2) (pair :: rest)

/-- Items at the indent, the first one without it. -/
def itemsChars (indent : Nat) : List Tree → List Char
  | [] => []
  | [item] => '-' :: nodeChars indent false item
  | item :: rest => '-' :: nodeChars indent false item ++ spaces indent ++ itemsChars indent rest

/-- Pairs at the indent, the first one without it. -/
def pairsChars (indent : Nat) : List (String × Tree) → List Char
  | [] => []
  | [(key, value)] => keyChars indent key ++ nodeChars indent (isSimpleKey key) value
  | (key, value) :: rest =>
    keyChars indent key ++ nodeChars indent (isSimpleKey key) value ++ spaces indent ++
      pairsChars indent rest

end

end Tree

/-- A mapping as a whole document. -/
def writeMapping (pairs : List (String × Tree)) : String :=
  String.ofList (Tree.pairsChars 0 pairs)

end DataBind.Yaml
