import DataBind.Binding.Basic
import DataBind.Json.Basic

/-!
# Bindings as JSON

Parts without a value are left out. A single observed attribute is a string, several are an
array, and the function of an attribute binding stands under the name of its role.
-/

namespace DataBind

def Observe.toJson : Observe → Json
  | one name => .string name
  | many names => .strings names

def AttributeBinding.toJson (binding : AttributeBinding) : Json :=
  .object <| [("name", .string binding.name)] ++
    Json.member? "observe" binding.observe Observe.toJson ++
    match binding.callback with
    | some callback => [(callback.role.name, .string callback.name)]
    | none => []

def ElementBinding.toJson (binding : ElementBinding) : Json :=
  .object <| Json.member? "observe" binding.observe Observe.toJson ++
    Json.member? "onGet" binding.onGet .string ++
    Json.member? "onSet" binding.onSet .string ++
    Json.member? "updateView" binding.updateView .string ++
    Json.member? "updateModel" binding.updateModel .string ++
    (match binding.attributes with
      | [] => []
      | attributes => [("attributes", .array (attributes.map AttributeBinding.toJson))]) ++
    Json.member? "events" binding.types Json.strings

def KeyMap.toJson {β : Type} (map : KeyMap β) (valueToJson : β → Json) : Json :=
  .object (map.entries.map fun (key, value) => (key, valueToJson value))

def bindingsToJson (bindings : Bindings) : Json :=
  bindings.toJson ElementBinding.toJson

end DataBind
