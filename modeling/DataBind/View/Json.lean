import DataBind.Json.Read
import DataBind.View.Bind

/-!
# Views, options and reports as JSON

Reading a JSON value is strict: a number is no text, and null stands for an absent value only
where one may be absent. A record may also be an array of its fields in order, with the last ones
left out, and a policy may be an object with null under the name of the policy.
-/

namespace DataBind

def Element.toJson (element : Element) : Json :=
  .object <| Json.member? "tag" element.tag .string ++ Json.member? "id" element.id .string ++
    [("attributes", element.attributes.toJson .string)]

def View.toJson (view : View) : Json :=
  .object <| Json.member? "model" view.model .string ++
    [("elements", .array (view.elements.map Element.toJson))]

def Skipped.toJson (skipped : Skipped) : Json :=
  .object [("index", .integer skipped.index), ("declaration", .string skipped.declaration),
    ("error", .string skipped.error)]

def Report.toJson (report : Report) : Json :=
  .object <| [("model", .string report.model), ("bindings", bindingsToJson report.bindings)] ++
    (match report.generatedIds with
      | [] => []
      | ids => [("generatedIds", .strings ids)]) ++
    match report.skipped with
    | [] => []
    | skipped => [("skipped", .array (skipped.map Skipped.toJson))]

def Registration.toJson : Registration → Json
  | own model bindings =>
    .object <| [("call", .string "stickit"), ("model", .string model)] ++
      Json.member? "bindings" bindings id
  | added model bindings =>
    .object [("call", .string "addBinding"), ("model", .string model),
      ("bindings", bindingsToJson bindings)]

def logToJson (log : List Registration) : Json :=
  .array (log.map Registration.toJson)

namespace Json

/-- The fields of a record with the given names, in their order; `none` for one that is left out. -/
def fields? (names : List String) : Json → Option (List (Option Json))
  | object members =>
    let members := KeyMap.ofList members
    some (names.map members.get?)
  | array items =>
    if items.length ≤ names.length then
      some (names.mapIdx fun i _ => items[i]?)
    else none
  | _ => none

def text? : Json → Option String
  | string text => some text
  | _ => none

def optionalText? : Json → Option (Option String)
  | null => some none
  | value => value.text?.map some

def bool? : Json → Option Bool
  | bool value => some value
  | _ => none

def items? : Json → Option (List Json)
  | array items => some items
  | _ => none

def texts? : Json → Option (KeyMap String)
  | object members => do
    let entries ← members.mapM fun (key, value) => value.text?.map fun text => (key, text)
    return KeyMap.ofList entries
  | _ => none

/-- The default for a field that is left out. -/
def field? {α : Type} (field : Option Json) (default : α) (read : Json → Option α) : Option α :=
  match field with
  | some value => read value
  | none => some default

end Json

def Element.ofJson? (value : Json) : Option Element := do
  match ← value.fields? ["tag", "id", "attributes"] with
  | [tag, id, attributes] =>
    return {
      tag := ← Json.field? tag none Json.optionalText?
      id := ← Json.field? id none Json.optionalText?
      attributes := ← Json.field? attributes KeyMap.empty Json.texts? }
  | _ => none

def View.ofJson? (value : Json) : Option View := do
  match ← value.fields? ["model", "elements"] with
  | [model, elements] =>
    return {
      model := ← Json.field? model none Json.optionalText?
      elements := ← Json.field? elements [] fun value => do
        (← value.items?).mapM Element.ofJson? }
  | _ => none

def BindOptions.ofJson? (value : Json) : Option BindOptions := do
  match ← value.fields? ["bindAttribute", "modelName"] with
  | [bindAttribute, modelName] =>
    return {
      bindAttribute := ← Json.field? bindAttribute "data-bind" Json.text?
      modelName := ← Json.field? modelName none Json.optionalText? }
  | _ => none

def ErrorPolicy.ofName? (name : String) : Option ErrorPolicy :=
  if name = "abort" then some abort else if name = "skip" then some skip else none

def ErrorPolicy.name : ErrorPolicy → String
  | abort => "abort"
  | skip => "skip"

def ErrorPolicy.ofJson? : Json → Option ErrorPolicy
  | .string name => ofName? name
  | .object members =>
    match (KeyMap.ofList members).entries with
    | [(name, .null)] => ofName? name
    | _ => none
  | _ => none

def Options.ofJson? (value : Json) : Option Options := do
  let names := ["optionalModel", "optionalBindings", "optionalBindOptions", "onError",
    "legacyModelFallthrough"]
  match ← value.fields? names with
  | [model, bindings, bindOptions, onError, legacy] =>
    return {
      model := ← Json.field? model none Json.optionalText?
      bindings := match bindings with
        | some .null => none
        | bindings => bindings.map Json.sorted
      bindOptions := ← Json.field? bindOptions none fun
        | .null => some none
        | value => (BindOptions.ofJson? value).map some
      onError := ← Json.field? onError .abort ErrorPolicy.ofJson?
      legacyModelFallthrough := ← Json.field? legacy false Json.bool? }
  | _ => none

/-- All fields, with null for the absent ones. -/
def BindOptions.toJson (options : BindOptions) : Json :=
  .object [("bindAttribute", .string options.bindAttribute),
    ("modelName", options.modelName.elim .null .string)]

def Options.toJson (options : Options) : Json :=
  .object [("optionalModel", options.model.elim .null .string),
    ("optionalBindings", options.bindings.getD .null),
    ("optionalBindOptions", options.bindOptions.elim .null BindOptions.toJson),
    ("onError", .string options.onError.name),
    ("legacyModelFallthrough", .bool options.legacyModelFallthrough)]

end DataBind
