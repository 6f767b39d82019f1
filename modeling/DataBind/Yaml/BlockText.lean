import DataBind.Yaml.Cursor

/-!
# Literal and folded scalars

A header with an optional chomping sign and indentation digit, then lines that are indented by
that much, or as the first line is. Folding joins lines by a space unless one of them begins with
a blank.
-/

namespace DataBind.Yaml

inductive Chomping
  | strip
  | clip
  | keep
deriving DecidableEq, Repr

structure BlockHeader where
  chomping : Chomping
  /-- Indentation beyond that of the parent, if given. -/
  increment : Option Nat
deriving DecidableEq, Repr

def chompingSign? : Char → Option Chomping
  | '+' => some .keep
  | '-' => some .strip
  | _ => none

def incrementDigit? (c : Char) : Option (Option Nat) :=
  if c == '0' then none else some (some (c.toNat - '0'.toNat))

/-- The header after its indicator, with the sign and the digit in either order. -/
def blockHeader? (cursor : Cursor) : Option (BlockHeader × Cursor) :=
  match cursor.rest with
  | c :: rest =>
    match chompingSign? c, rest with
    | some chomping, d :: _ =>
      if d.isDigit then
        (incrementDigit? d).map fun increment => (⟨chomping, increment⟩, cursor.advance 2)
      else some (⟨chomping, none⟩, cursor.advance 1)
    | some chomping, [] => some (⟨chomping, none⟩, cursor.advance 1)
    | none, _ =>
      if c.isDigit then
        (incrementDigit? c).map fun increment =>
          match rest.head?.bind chompingSign? with
          | some chomping => (⟨chomping, increment⟩, cursor.advance 2)
          | none => (⟨.clip, increment⟩, cursor.advance 1)
      else some (⟨.clip, none⟩, cursor)
  | [] => some (⟨.clip, none⟩, cursor)

/-- Skips indentation and empty lines. Gives their line breaks and the greatest column seen; a tab
within the indentation is refused. Without an indent all spaces are indentation. -/
def blockBreaks? (indent : Option Nat) :
    Nat → Nat → Cursor → Option (List Char × Nat × Cursor)
  | 0, widest, cursor => some ([], widest, cursor)
  | fuel + 1, widest, cursor =>
    let spaces := (cursor.rest.takeWhile (· == ' ')).length
    let cursor := cursor.advance <| match indent with
      | some indent => min spaces (indent - cursor.column)
      | none => spaces
    let widest := max widest cursor.column
    let inside := match indent with
      | some indent => cursor.column < indent
      | none => true
    if inside && cursor.seesChar '\t' then none
    else if cursor.sees isBreak then
      let (text, cursor) := cursor.takeBreak
      (blockBreaks? indent fuel widest cursor).map fun (breaks, outcome) =>
        (text ++ breaks, outcome)
    else some ([], widest, cursor)

/-- What precedes a line: the break of the line before it, folded or not, and empty lines. -/
def lineJoin (folded : Bool) (lastBreak emptyLines : List Char) (blankBefore blankHere : Bool) :
    List Char :=
  if folded && lastBreak == ['\n'] && !blankBefore && !blankHere then
    if emptyLines = [] then [' '] else emptyLines
  else lastBreak ++ emptyLines

/-- The lines of the scalar, then the break of the last line and the empty lines after it. -/
def blockLines? (folded : Bool) (indent : Nat) :
    Nat → List Char → List Char → Bool → Cursor →
      Option (List Char × List Char × List Char × Cursor)
  | 0, lastBreak, emptyLines, _, cursor => some ([], lastBreak, emptyLines, cursor)
  | fuel + 1, lastBreak, emptyLines, blankBefore, cursor =>
    if cursor.column == indent && !cursor.atEnd then
      let blankHere := cursor.sees isBlank
      let join := lineJoin folded lastBreak emptyLines blankBefore blankHere
      let (line, cursor) := cursor.spanWhile (!isBreak ·)
      let (lastBreak, cursor) := cursor.takeBreak
      match blockBreaks? (some indent) (cursor.rest.length + 1) 0 cursor with
      | none => none
      | some (emptyLines, _, cursor) =>
        (blockLines? folded indent fuel lastBreak emptyLines blankHere cursor).map
          fun (text, outcome) => (join ++ line ++ text, outcome)
    else some ([], lastBreak, emptyLines, cursor)

/-- A block scalar from its indicator on, within a parent of the given indent. -/
def blockScalar? (folded : Bool) (parent : Int) (cursor : Cursor) :
    Option (List Char × Cursor) := do
  let (header, cursor) ← blockHeader? (cursor.advance 1)
  let cursor ← cursor.finishLine?
  let given := header.increment.map fun increment => (max parent 0).toNat + increment
  let (emptyLines, widest, cursor) ← blockBreaks? given (cursor.rest.length + 1) 0 cursor
  let indent := given.getD (max widest (max (parent + 1).toNat 1))
  let (text, lastBreak, emptyLines, cursor) ←
    blockLines? folded indent (cursor.rest.length + 1) [] emptyLines false cursor
  let tail := match header.chomping with
    | .strip => []
    | .clip => lastBreak
    | .keep => lastBreak ++ emptyLines
  return (text ++ tail, cursor)

end DataBind.Yaml
