import DataBind.Json.Basic
import DataBind.KeyMap
import DataBind.Yaml.Document
import DataBind.Yaml.PlainValue

/-!
# Reading values from nodes

What a node is read as says what it may be: a scalar serves as a text whatever its style, a plain
empty scalar serves as an empty collection, and only values of no fixed shape are typed by how
their scalars look. Following aliases is limited for the whole document, so that a few lines cannot
stand for an endless value.
-/

namespace DataBind.Yaml

/-- The state is the number of aliases that may still be followed. -/
abbrev Reading := ReaderT Document (StateT Nat Option)

def nullTag : String := "tag:yaml.org,2002:null"

def boolTag : String := "tag:yaml.org,2002:bool"

def intTag : String := "tag:yaml.org,2002:int"

def floatTag : String := "tag:yaml.org,2002:float"

/-- The name in a tag of the document's own. -/
def localName? (tag : Option String) : Option String :=
  match tag.map String.toList with
  | some ('!' :: name) => some (String.ofList name)
  | _ => none

def isPlainNull (style : ScalarStyle) (text : String) : Bool :=
  style == .plain && (text == "" || PlainValue.isNullWord text)

def isPlainEmpty (style : ScalarStyle) (text : String) : Bool :=
  style == .plain && text == ""

/-- Integers past 64 bits are no JSON; infinities become null. -/
def PlainValue.toJson? (text : String) : PlainValue → Option Json
  | null | nonFinite => some .null
  | bool value => some (.bool value)
  | integer value => if Json.isInteger value then some (.integer value) else none
  | float value => some (.float value)
  | .text => some (.string text)

/-- A core tag decides the type whatever the style; without one, quoted scalars are texts. -/
def scalarJson? (tag : Option String) (style : ScalarStyle) (text : String) : Option Json :=
  match tag with
  | none => if style = .plain then (PlainValue.ofText text).toJson? text else some (.string text)
  | some tag =>
    if tag = nullTag then if PlainValue.isNullWord text then some .null else none
    else if tag = boolTag then (PlainValue.bool? text).map .bool
    else if tag = intTag then
      (PlainValue.integer? text.toList).bind fun value => (PlainValue.integer value).toJson? text
    else if tag = floatTag then
      (PlainValue.float? text.toList).bind fun value => value.toJson? text
    else some (.string text)

def readField {α : Type} (fields : List (String × Node Nat)) (name : String) (default : α)
    (read : Node Nat → Reading α) : Reading α :=
  match fields.lookup name with
  | some node => read node
  | none => pure default

namespace Node

/-- The node itself, or the one that it stands for. -/
def follow : Node Nat → Reading (Node Nat)
  | .alias number => do
    match ← get, (← read).anchored.lookup number with
    | left + 1, some node =>
      set left
      return node
    | _, _ => failure
  | node => return node

def readText (node : Node Nat) : Reading String := do
  match ← node.follow with
  | .scalar _ _ text => return text
  | _ => failure

/-- Null words and nothing at all are an absent value unless they are quoted or tagged. -/
def readOptional {α : Type} (read : Node Nat → Reading α) (node : Node Nat) :
    Reading (Option α) := do
  let node ← node.follow
  match node with
  | .scalar ⟨_, some tag⟩ .plain text =>
    if tag = nullTag then
      if PlainValue.isNullWord text then return none else failure
    else return some (← read node)
  | .scalar ⟨_, none⟩ style text =>
    if isPlainNull style text then return none else return some (← read node)
  | _ => return some (← read node)

def readBool (node : Node Nat) : Reading Bool := do
  match ← node.follow with
  | .scalar properties style text =>
    if style = .plain || (style = .literal && properties.tag == some boolTag) then
      match PlainValue.bool? text with
      | some value => return value
      | none => failure
    else failure
  | _ => failure

/-- A choice is named by a text, or by the tag of a null. -/
def readChoice {α : Type} (choice? : String → Option α) (node : Node Nat) : Reading α := do
  match ← node.follow with
  | .scalar properties style text =>
    let named (name : String) : Reading α := match choice? name with
      | some choice => pure choice
      | none => failure
    match localName? properties.tag with
    | some name => if isPlainNull style text then named name else failure
    | none => named text
  | _ => failure

def readItems (node : Node Nat) : Reading (List (Node Nat)) := do
  match ← node.follow with
  | .sequence _ items => return items
  | .scalar _ style text => if isPlainEmpty style text then return [] else failure
  | _ => failure

def readPairs (node : Node Nat) : Reading (List (Node Nat × Node Nat)) := do
  match ← node.follow with
  | .mapping _ pairs => return pairs
  | .scalar _ style text => if isPlainEmpty style text then return [] else failure
  | _ => failure

/-- Of a repeated key the last value counts. -/
def readTexts (node : Node Nat) : Reading (KeyMap String) := do
  let entries ← (← node.readPairs).mapM fun (key, value) => do
    return (← key.readText, ← value.readText)
  return KeyMap.ofList entries

/-- The fields of a record that have one of the names; a repeated one is refused. -/
def readFields (names : List String) (node : Node Nat) : Reading (List (String × Node Nat)) := do
  (← node.readPairs).foldlM (fun fields (key, value) => do
    let name ← key.readText
    if !names.contains name then return fields
    else if (fields.lookup name).isSome then failure
    else return (name, value) :: fields) []

/-- Collections may be nested as deep as `depth`. A tag of the document's own is refused. -/
def readJson : Nat → Node Nat → Reading Json
  | depth, node => do
    match ← node.follow with
    | .scalar properties style text =>
      if (localName? properties.tag).isSome then failure
      else match scalarJson? properties.tag style text with
        | some value => return value
        | none => failure
    | .sequence properties items =>
      if (localName? properties.tag).isSome then failure
      else match depth with
        | 0 => failure
        | depth + 1 => return .array (← items.mapM (readJson depth))
    | .mapping properties pairs =>
      if (localName? properties.tag).isSome then failure
      else match depth with
        | 0 => failure
        | depth + 1 =>
          let members ← pairs.mapM fun (key, value) => do
            return (← key.readText, ← value.readJson depth)
          return .object (KeyMap.ofList members).entries
    | .alias _ => failure

end Node

/-- Reads the one document of a text. -/
def read? {α : Type} (read : Node Nat → Reading α) (text : String) : Option α := do
  let document ← Document.ofText? text
  let (value, _) ← read document.root document document.jumpLimit
  return value

end DataBind.Yaml
