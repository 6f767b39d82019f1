import DataBind.KeyMap

/-!
# Views

A view is a flat list of page elements with their attributes, and the model they are bound to
when the caller names none.
-/

namespace DataBind

structure Element where
  tag : Option String := none
  id : Option String := none
  attributes : KeyMap String := KeyMap.empty
deriving DecidableEq

def Element.attribute? (element : Element) (name : String) : Option String :=
  element.attributes.get? name

structure View where
  model : Option String := none
  elements : List Element := []
deriving DecidableEq

end DataBind
