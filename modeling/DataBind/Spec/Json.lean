import DataBind.Json.Basic
import DataBind.Spec.Basic

/-!
# Specifications as JSON

An operand is an object without a tag: the members it has tell its kind. The legacy reading of a
model operand stands beside the model names.
-/

namespace DataBind

def FilterKind.name : FilterKind → String
  | formatter => "formatter"
  | filter => "filter"

def FilterTarget.name : FilterTarget → String
  | dom => "dom"
  | model => "model"

def Filter.toJson (filter : Filter) : Json :=
  .object [("name", .string filter.name), ("type", .string filter.kind.name),
    ("target", .string filter.target.name)]

def DataBound.members (data : DataBound) : List (String × Json) :=
  Json.member? "model" data.model .string ++
  [("attributes", .strings data.attributes)] ++
  match data.filters with
  | [] => []
  | filters => [("filters", .array (filters.map Filter.toJson))]

def DataBound.toJson (data : DataBound) : Json :=
  .object data.members

def Operand.toJson : Operand → Json
  | dataBound data => data.toJson
  | events types => .object [("types", .strings types)]
  | model names none => .object [("modelNames", .strings names)]
  | model names (some legacy) => .object (("modelNames", .strings names) :: legacy.members)

def Spec.toJson (spec : Spec) : Json :=
  .object (spec.entries.map fun (name, operand) => (name, operand.toJson))

end DataBind
