import DataBind.Filter
import DataBind.KeyMap

/-!
# Bindings

What the engine takes: for each element, under its selector, the attributes to observe, a
function name for each callback slot, bindings of page attributes and event types.
-/

namespace DataBind

inductive Observe
  | one (name : String)
  | many (names : List String)
deriving DecidableEq, Repr

namespace Observe

/-- No name is nothing to observe and a single one stands alone. -/
def collapse : List String → Option Observe
  | [] => none
  | [name] => some (one name)
  | names => some (many names)

def names : Observe → List String
  | one name => [name]
  | many names => names

end Observe

structure Callback where
  role : CallbackRole
  name : String
deriving DecidableEq, Repr

/-- A model attribute bound to a page attribute such as `class`. -/
structure AttributeBinding where
  name : String
  observe : Option Observe
  callback : Option Callback
deriving DecidableEq, Repr

structure ElementBinding where
  observe : Option Observe := none
  onGet : Option String := none
  onSet : Option String := none
  updateView : Option String := none
  updateModel : Option String := none
  attributes : List AttributeBinding := []
  /-- Events upon which the page is read back into the model. -/
  types : Option (List String) := none
deriving DecidableEq, Repr

namespace ElementBinding

def empty : ElementBinding := {}

/-- Overwrites what the slot held. -/
def setCallback (binding : ElementBinding) (role : CallbackRole) (name : String) : ElementBinding :=
  match role with
  | .onGet => { binding with onGet := some name }
  | .onSet => { binding with onSet := some name }
  | .updateView => { binding with updateView := some name }
  | .updateModel => { binding with updateModel := some name }

def callback? (binding : ElementBinding) : CallbackRole → Option String
  | .onGet => binding.onGet
  | .onSet => binding.onSet
  | .updateView => binding.updateView
  | .updateModel => binding.updateModel

def attribute? (binding : ElementBinding) (name : String) : Option AttributeBinding :=
  binding.attributes.find? fun bound => bound.name == name

end ElementBinding

/-- The bindings of several elements by selector. -/
abbrev Bindings := KeyMap ElementBinding

end DataBind
