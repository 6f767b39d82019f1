import DataBind.Yaml.BlockText
import DataBind.Yaml.FlowText
import DataBind.Yaml.TagText

/-!
# From text to tokens

A key of a mapping is known to be one only at its colon. The lexer therefore remembers where a key
may have begun, one place for each level of flow collections, and puts the key token there
afterwards. A key has to stand on one line and within 1024 bytes before its colon.
-/

namespace DataBind.Yaml

/-- Where a key may have begun. -/
structure KeyMark where
  /-- In a block collection at its indent nothing but a key can stand here. -/
  required : Bool
  /-- How many tokens came before. -/
  number : Nat
  index : Nat
  line : Nat
  column : Nat
deriving DecidableEq, Repr

def KeyMark.isStale (mark : KeyMark) (cursor : Cursor) : Bool :=
  mark.line < cursor.line || mark.index + 1024 < cursor.index

structure Lexer where
  cursor : Cursor
  flowLevel : Nat
  /-- Column of the innermost block collection, `-1` outside of any. -/
  indent : Int
  indents : List Int
  /-- A key may begin at the next token. -/
  keyAllowed : Bool
  keyMark : Option KeyMark
  /-- Marks of the enclosing levels, innermost first. -/
  outerMarks : List (Option KeyMark)
  /-- Tokens so far, newest first. -/
  produced : List Token
deriving DecidableEq, Repr

namespace Lexer

def start (text : List Char) : Lexer where
  cursor := Cursor.start text
  flowLevel := 0
  indent := -1
  indents := []
  keyAllowed := true
  keyMark := none
  outerMarks := []
  produced := []

def inFlow (lexer : Lexer) : Bool :=
  0 < lexer.flowLevel

def emit (lexer : Lexer) (token : Token) : Lexer :=
  { lexer with produced := token :: lexer.produced }

/-- Puts a token where `number` tokens come before it. -/
def emitAt (lexer : Lexer) (number : Nat) (token : Token) : Lexer :=
  let later := lexer.produced.length - number
  { lexer with produced := lexer.produced.take later ++ token :: lexer.produced.drop later }

def moveTo (lexer : Lexer) (cursor : Cursor) : Lexer :=
  { lexer with cursor }

def allowKey (lexer : Lexer) (keyAllowed : Bool) : Lexer :=
  { lexer with keyAllowed }

/-! ### Places of keys -/

def liveMark? (cursor : Cursor) : Option KeyMark → Option (Option KeyMark)
  | none => some none
  | some mark =>
    if !mark.isStale cursor then some (some mark)
    else if mark.required then none
    else some none

/-- Forgets the marks whose colon would come too late. -/
def dropStaleMarks? (lexer : Lexer) : Option Lexer := do
  let keyMark ← liveMark? lexer.cursor lexer.keyMark
  let outerMarks ← lexer.outerMarks.mapM (liveMark? lexer.cursor)
  return { lexer with keyMark, outerMarks }

def forgetMark? (lexer : Lexer) : Option Lexer :=
  match lexer.keyMark with
  | some mark => if mark.required then none else some { lexer with keyMark := none }
  | none => some lexer

def markKey? (lexer : Lexer) : Option Lexer :=
  if lexer.keyAllowed then
    let cursor := lexer.cursor
    let mark : KeyMark := {
      required := !lexer.inFlow && lexer.indent == cursor.column
      number := lexer.produced.length
      index := cursor.index
      line := cursor.line
      column := cursor.column }
    lexer.forgetMark?.map fun lexer => { lexer with keyMark := some mark }
  else some lexer

/-! ### Indentation -/

/-- Opens a block collection, with its token in front of token `number`, if the column is further
in. -/
def openBlock (lexer : Lexer) (column number : Nat) (token : Token) : Lexer :=
  if !lexer.inFlow && lexer.indent < column then
    { lexer.emitAt number token with indent := column, indents := lexer.indent :: lexer.indents }
  else lexer

def closeFrom (column : Int) : List Int → Lexer → Lexer
  | [], lexer => lexer
  | outer :: indents, lexer =>
    if column < lexer.indent then
      closeFrom column indents { lexer.emit .blockEnd with indent := outer, indents }
    else lexer

/-- Closes the block collections that are further in than the column. -/
def closeBlocks (lexer : Lexer) (column : Int) : Lexer :=
  if lexer.inFlow then lexer else closeFrom column lexer.indents lexer

/-! ### Tokens -/

/-- Skips blanks, comments and line breaks. Tabs are skipped where no key may begin, a
byte order mark at the start of a line. -/
def skipGap : Nat → Lexer → Lexer
  | 0, lexer => lexer
  | fuel + 1, lexer =>
    let cursor := lexer.cursor
    let cursor :=
      if cursor.column == 0 && cursor.seesChar '\ufeff' then cursor.advance 1 else cursor
    let tabs := lexer.inFlow || !lexer.keyAllowed
    let cursor := cursor.skipWhile fun c => c == ' ' || (tabs && c == '\t')
    let cursor := if cursor.seesChar '#' then cursor.skipWhile (!isBreak ·) else cursor
    if cursor.sees isBreak then
      skipGap fuel { lexer with
        cursor := cursor.takeBreak.2, keyAllowed := lexer.keyAllowed || !lexer.inFlow }
    else lexer.moveTo cursor

/-- What ends all block collections: directives, document markers and the end of the text. -/
def leaveBlocks? (lexer : Lexer) : Option Lexer :=
  (lexer.closeBlocks (-1)).forgetMark?.map (·.allowKey false)

def take (lexer : Lexer) (width : Nat) (token : Token) : Lexer :=
  (lexer.moveTo (lexer.cursor.advance width)).emit token

def directive? (lexer : Lexer) : Option Lexer := do
  let lexer ← lexer.leaveBlocks?
  let (token, cursor) ← Yaml.directive? lexer.cursor
  return (lexer.moveTo cursor).emit token

def marker? (lexer : Lexer) (token : Token) : Option Lexer :=
  lexer.leaveBlocks?.map fun lexer => lexer.take 3 token

def openFlow? (lexer : Lexer) (token : Token) : Option Lexer := do
  let lexer ← lexer.markKey?
  return { lexer.take 1 token with
    flowLevel := lexer.flowLevel + 1
    keyAllowed := true
    keyMark := none
    outerMarks := lexer.keyMark :: lexer.outerMarks }

def closeFlow? (lexer : Lexer) (token : Token) : Option Lexer := do
  let lexer ← lexer.forgetMark?
  let lexer := (lexer.take 1 token).allowKey false
  match lexer.outerMarks with
  | keyMark :: outerMarks =>
    return { lexer with flowLevel := lexer.flowLevel - 1, keyMark, outerMarks }
  | [] => return lexer

def flowEntry? (lexer : Lexer) : Option Lexer :=
  lexer.forgetMark?.map fun lexer => (lexer.take 1 .flowEntry).allowKey true

/-- Opens a block collection at the cursor, where one may begin. -/
def openBlockHere? (lexer : Lexer) (token : Token) : Option Lexer :=
  if lexer.inFlow then some lexer
  else if lexer.keyAllowed then
    some (lexer.openBlock lexer.cursor.column lexer.produced.length token)
  else none

def blockEntry? (lexer : Lexer) : Option Lexer := do
  let lexer ← (← lexer.openBlockHere? .blockSequenceStart).forgetMark?
  return (lexer.take 1 .blockEntry).allowKey true

def key? (lexer : Lexer) : Option Lexer := do
  let lexer ← (← lexer.openBlockHere? .blockMappingStart).forgetMark?
  return (lexer.take 1 .key).allowKey !lexer.inFlow

/-- A colon makes what stands at the mark a key. -/
def value? (lexer : Lexer) : Option Lexer :=
  match lexer.keyMark with
  | some mark =>
    let lexer := lexer.emitAt mark.number .key
    let lexer := lexer.openBlock mark.column mark.number .blockMappingStart
    some (({ lexer with keyMark := none }.take 1 .value).allowKey false)
  | none =>
    (lexer.openBlockHere? .blockMappingStart).map fun lexer =>
      (lexer.take 1 .value).allowKey !lexer.inFlow

/-- A token that a key may begin with, read from the cursor on. -/
def content? (lexer : Lexer) (read : Cursor → Option (Token × Cursor)) : Option Lexer := do
  let lexer ← lexer.markKey?
  let (token, cursor) ← read lexer.cursor
  return ((lexer.moveTo cursor).emit token).allowKey false

def name? (lexer : Lexer) (token : String → Token) : Option Lexer :=
  lexer.content? fun cursor => (anchorName? cursor).map fun (name, cursor) => (token name, cursor)

def quoted? (lexer : Lexer) (single : Bool) : Option Lexer :=
  lexer.content? fun cursor => (quotedScalar? single cursor).map fun (text, cursor) =>
    (.scalar (if single then .singleQuoted else .doubleQuoted) (String.ofList text), cursor)

def block? (lexer : Lexer) (folded : Bool) : Option Lexer := do
  let lexer ← lexer.forgetMark?
  let (text, cursor) ← blockScalar? folded lexer.indent lexer.cursor
  let token := .scalar (if folded then .folded else .literal) (String.ofList text)
  return ((lexer.moveTo cursor).emit token).allowKey true

/-- A key may begin again after a plain scalar that a line break ended. -/
def plain? (lexer : Lexer) : Option Lexer := do
  let lexer ← lexer.markKey?
  let (text, broken, cursor) ←
    plainScalar? lexer.inFlow (lexer.indent + 1).toNat lexer.cursor
  return ((lexer.moveTo cursor).emit (.scalar .plain (String.ofList text))).allowKey broken

/-- Indicators that no plain scalar begins with. -/
def isIndicator (c : Char) : Bool :=
  "-?:,[]\x7b\x7d#&*!|>'\"%@\x60".toList.contains c

/-- The next token and those that it brings with it. -/
def step? (lexer : Lexer) (c : Char) : Option Lexer :=
  let cursor := lexer.cursor
  let flow := lexer.inFlow
  if cursor.column == 0 && c == '%' then lexer.directive?
  else if cursor.seesMarker '-' then lexer.marker? .documentStart
  else if cursor.seesMarker '.' then lexer.marker? .documentEnd
  else match c with
    | '[' => lexer.openFlow? .flowSequenceStart
    | '\x7b' => lexer.openFlow? .flowMappingStart
    | ']' => lexer.closeFlow? .flowSequenceEnd
    | '\x7d' => lexer.closeFlow? .flowMappingEnd
    | ',' => lexer.flowEntry?
    | '*' => lexer.name? .alias
    | '&' => lexer.name? .anchor
    | '!' => lexer.content? (tag? flow)
    | '\'' => lexer.quoted? true
    | '"' => lexer.quoted? false
    | c =>
      if c == '-' && cursor.gapAt 1 then lexer.blockEntry?
      else if c == '?' && (flow || cursor.gapAt 1) then lexer.key?
      else if c == ':' && (flow || cursor.gapAt 1) then lexer.value?
      else if c == '|' && !flow then lexer.block? false
      else if c == '>' && !flow then lexer.block? true
      else if isGap c then none
      else if !isIndicator c || c == '-' || (!flow && (c == '?' || c == ':')) then lexer.plain?
      else none

def finish? (lexer : Lexer) : Option (List Token) :=
  lexer.leaveBlocks?.map fun lexer => lexer.produced.reverse

def run? : Nat → Lexer → Option (List Token)
  | 0, _ => none
  | fuel + 1, lexer => do
    let lexer ← (skipGap (lexer.cursor.rest.length + 1) lexer).dropStaleMarks?
    let lexer := lexer.closeBlocks lexer.cursor.column
    match lexer.cursor.rest with
    | [] => lexer.finish?
    | c :: _ => run? fuel (← lexer.step? c)

end Lexer

/-- The tokens of a text, or nothing if it is no YAML. -/
def tokens? (text : List Char) : Option (List Token) :=
  if text.all isReadable then Lexer.run? (text.length + 1) (Lexer.start text) else none

end DataBind.Yaml
