import DataBind.Clause
import DataBind.Json.Basic
import DataBind.View.Basic

/-!
# Options and selection

The options say which elements carry declarations, which model they are bound to and what a bad
declaration does. A `Selector` picks the elements that have the attribute and, given a model name,
those whose declaration mentions it anywhere in its text.
-/

namespace DataBind

structure BindOptions where
  bindAttribute : String := "data-bind"
  modelName : Option String := none
deriving DecidableEq, Repr

inductive ErrorPolicy
  | abort
  | skip
deriving DecidableEq, Repr

structure Options where
  model : Option String := none
  /-- Bindings of the caller's own, registered before those of the view. -/
  bindings : Option Json := none
  bindOptions : Option BindOptions := none
  onError : ErrorPolicy := .abort
  legacyModelFallthrough : Bool := false

namespace Options

def effectiveBindOptions (options : Options) : BindOptions :=
  options.bindOptions.getD {}

def compileOptions (options : Options) : CompileOptions :=
  ⟨options.legacyModelFallthrough⟩

end Options

structure Selector where
  attributeName : String
  /-- What a declaration has to contain. -/
  needle : Option String
deriving DecidableEq, Repr

namespace Selector

def ofOptions (options : BindOptions) : Selector :=
  ⟨options.bindAttribute, options.modelName.map fun name => "model:" ++ name⟩

/-- The declaration of an element that is selected. -/
def declaration? (selector : Selector) (element : Element) : Option String :=
  match element.attribute? selector.attributeName, selector.needle with
  | some value, some needle =>
    if Text.occursIn needle.toList value.toList then some value else none
  | some value, none => some value
  | none, _ => none

def selects (selector : Selector) (element : Element) : Bool :=
  (selector.declaration? element).isSome

def text (selector : Selector) : String :=
  match selector.needle with
  | some needle => "[" ++ selector.attributeName ++ "*='" ++ needle ++ "']"
  | none => "[" ++ selector.attributeName ++ "]"

end Selector

def View.selected (view : View) (selector : Selector) : List Element :=
  view.elements.filter selector.selects

end DataBind
