import DataBind.Binding.Basic
import DataBind.Spec.Basic

/-!
# Lowering

`Spec.lower` gives the binding of a specification. The operand `value` gives the observed
attributes and the callbacks, `disabled`, `class` and `readonly` give attribute bindings, events
give event types, and nothing else has an effect.
-/

namespace DataBind

def attributeOperands : List String := ["disabled", "class", "readonly"]

/-- Of two filters with one role the later one stands. -/
def ElementBinding.withFilters (binding : ElementBinding) (filters : List Filter) :
    ElementBinding :=
  filters.foldl (fun binding filter => binding.setCallback filter.role filter.name) binding

def DataBound.lowerValue (data : DataBound) (binding : ElementBinding) : ElementBinding :=
  { binding with observe := Observe.collapse data.attributes }.withFilters data.filters

/-- The engine takes one function for each attribute, so only the first filter counts. -/
def DataBound.lowerAttribute (data : DataBound) (name : String) : AttributeBinding where
  name := name
  observe := Observe.collapse data.attributes
  callback := data.filters.head?.map fun filter => ⟨filter.role, filter.name⟩

def Operand.lower (name : String) (operand : Operand) (binding : ElementBinding) : ElementBinding :=
  match operand with
  | .dataBound data =>
    if name = "value" then data.lowerValue binding
    else if name ∈ attributeOperands then
      { binding with attributes := binding.attributes ++ [data.lowerAttribute name] }
    else binding
  | .events types => { binding with types := some types }
  | .model _ _ => binding

def Spec.lower (spec : Spec) : ElementBinding :=
  spec.entries.foldl (fun binding (name, operand) => operand.lower name binding) .empty

/-- The key of an element in the bindings. -/
def selectorFor (id : String) : String :=
  "#" ++ id

end DataBind
