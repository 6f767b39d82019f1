import DataBind.Yaml.Chars

/-!
# Positions in a document

A cursor is the rest of the text with the number of bytes before it, the line and the column.
Bytes are those of UTF-8, columns count characters. A carriage return and a line feed together are
one line break.
-/

namespace DataBind.Yaml

structure Cursor where
  rest : List Char
  index : Nat
  line : Nat
  column : Nat
deriving DecidableEq, Repr

namespace Cursor

def byteCount (text : List Char) : Nat :=
  text.foldl (fun count c => count + c.utf8Size) 0

def start (text : List Char) : Cursor := ⟨text, 0, 0, 0⟩

def advance (cursor : Cursor) (n : Nat) : Cursor :=
  { cursor with
    rest := cursor.rest.drop n
    index := cursor.index + byteCount (cursor.rest.take n)
    column := cursor.column + n }

/-- The next character is one of the class. -/
def sees (cursor : Cursor) (p : Char → Bool) : Bool :=
  match cursor.rest with
  | c :: _ => p c
  | [] => false

def seesChar (cursor : Cursor) (c : Char) : Bool :=
  cursor.rest.head? == some c

def atEnd (cursor : Cursor) : Bool :=
  cursor.rest.isEmpty

/-- A blank, a line break or the end, `n` characters further on. -/
def gapAt (cursor : Cursor) (n : Nat) : Bool :=
  match cursor.rest[n]? with
  | some c => isGap c
  | none => true

def spanWhile (cursor : Cursor) (p : Char → Bool) : List Char × Cursor :=
  let taken := cursor.rest.takeWhile p
  (taken, cursor.advance taken.length)

def skipWhile (cursor : Cursor) (p : Char → Bool) : Cursor :=
  (cursor.spanWhile p).2

/-- Moves on to a rest of the text in the same line. -/
def goTo (cursor : Cursor) (rest : List Char) : Cursor :=
  cursor.advance (cursor.rest.length - rest.length)

/-- Moves on past a line break. -/
def nextLine (cursor : Cursor) (lineBreak rest : List Char) : Cursor :=
  ⟨rest, cursor.index + byteCount lineBreak, cursor.line + 1, 0⟩

/-- A line break as it counts in a scalar, the Unicode separators as they are and all others as a
line feed; nothing if there is none. -/
def takeBreak (cursor : Cursor) : List Char × Cursor :=
  match cursor.rest with
  | '\r' :: '\n' :: rest => (['\n'], cursor.nextLine ['\r', '\n'] rest)
  | c :: rest =>
    if c == '\u2028' || c == '\u2029' then ([c], cursor.nextLine [c] rest)
    else if isBreak c then (['\n'], cursor.nextLine [c] rest)
    else ([], cursor)
  | [] => ([], cursor)

/-- Three characters of this kind alone at the start of a line. -/
def seesMarker (cursor : Cursor) (c : Char) : Bool :=
  cursor.column == 0 && cursor.rest.take 3 == [c, c, c] && cursor.gapAt 3

def seesDocumentMarker (cursor : Cursor) : Bool :=
  cursor.seesMarker '-' || cursor.seesMarker '.'

/-- Blanks and a comment up to the end of the line. -/
def skipComment (cursor : Cursor) : Cursor :=
  let cursor := cursor.skipWhile isBlank
  if cursor.seesChar '#' then cursor.skipWhile (!isBreak ·) else cursor

/-- The rest of a line that may hold only a comment, with its line break. -/
def finishLine? (cursor : Cursor) : Option Cursor :=
  let cursor := cursor.skipComment
  if cursor.atEnd || cursor.sees isBreak then some cursor.takeBreak.2 else none

end Cursor

end DataBind.Yaml
