import DataBind.Error
import DataBind.Text.Pieces

/-!
# Filters

A filter token is a function name with one symbol on one side. `+` is a formatter and `-` a
filter; before the name it runs on the way to the page, after the name on the way to the model.
A chain is one token or several, separated by `|`.
-/

namespace DataBind

inductive FilterKind
  | formatter
  | filter
deriving DecidableEq, Repr

def FilterKind.symbol : FilterKind → Char
  | formatter => '+'
  | filter => '-'

def FilterKind.ofSymbol? (c : Char) : Option FilterKind :=
  if c = '+' then some formatter else if c = '-' then some filter else none

inductive FilterTarget
  | dom
  | model
deriving DecidableEq, Repr

/-- The callback slot of the engine that a filter fills. -/
inductive CallbackRole
  | onGet
  | onSet
  | updateView
  | updateModel
deriving DecidableEq, Repr

namespace CallbackRole

def name : CallbackRole → String
  | onGet => "onGet"
  | onSet => "onSet"
  | updateView => "updateView"
  | updateModel => "updateModel"

def ofFilter : FilterKind → FilterTarget → CallbackRole
  | .formatter, .dom => onGet
  | .formatter, .model => onSet
  | .filter, .dom => updateView
  | .filter, .model => updateModel

end CallbackRole

structure Filter where
  name : String
  kind : FilterKind
  target : FilterTarget
deriving DecidableEq, Repr

namespace Filter

def role (filter : Filter) : CallbackRole :=
  CallbackRole.ofFilter filter.kind filter.target

def text (filter : Filter) : String :=
  match filter.target with
  | .dom => String.singleton filter.kind.symbol ++ filter.name
  | .model => filter.name ++ String.singleton filter.kind.symbol

def isNameChar (c : Char) : Bool :=
  c.isAlphanum || c == '_'

def isName (cs : List Char) : Bool :=
  !cs.isEmpty && cs.all isNameChar

/-- A token with its symbol in front. -/
def leading? : List Char → Option Filter
  | [] => none
  | c :: name =>
    match FilterKind.ofSymbol? c with
    | some kind => if isName name then some ⟨String.ofList name, kind, .dom⟩ else none
    | none => none

/-- A token with its symbol at the end. -/
def trailing? (token : List Char) : Option Filter :=
  match token.getLast? with
  | some c =>
    match FilterKind.ofSymbol? c with
    | some kind =>
      if isName token.dropLast then some ⟨String.ofList token.dropLast, kind, .model⟩ else none
    | none => none
  | none => none

def parse (token : String) : Except DeclarationError Filter :=
  match (leading? token.toList).or (trailing? token.toList) with
  | some filter => .ok filter
  | none => .error (.badFilter token)

/-- Without a chain there are no filters. -/
def parseChain : Option String → Except DeclarationError (List Filter)
  | none => .ok []
  | some chain => (Text.pieces '|' chain).mapM parse

end Filter

end DataBind
