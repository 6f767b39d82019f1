import DataBind.View.Json
import DataBind.Yaml.Block
import DataBind.Yaml.Reading

/-!
# Views and options as YAML

Records are mappings, keys that are no field are ignored, and a field that is left out has its
default. A view is written in block style without the fields that are absent.
-/

namespace DataBind

open Yaml (Node Reading Tree readField)

def Element.read (node : Node Nat) : Reading Element := do
  let fields ← node.readFields ["tag", "id", "attributes"]
  return {
    tag := ← readField fields "tag" none (Node.readOptional Node.readText)
    id := ← readField fields "id" none (Node.readOptional Node.readText)
    attributes := ← readField fields "attributes" KeyMap.empty Node.readTexts }

def View.read (node : Node Nat) : Reading View := do
  let fields ← node.readFields ["model", "elements"]
  return {
    model := ← readField fields "model" none (Node.readOptional Node.readText)
    elements := ← readField fields "elements" [] fun node => do
      (← node.readItems).mapM Element.read }

def BindOptions.read (node : Node Nat) : Reading BindOptions := do
  let fields ← node.readFields ["bindAttribute", "modelName"]
  return {
    bindAttribute := ← readField fields "bindAttribute" "data-bind" Node.readText
    modelName := ← readField fields "modelName" none (Node.readOptional Node.readText) }

/-- Collections may be nested 128 deep, the options themselves included. -/
def bindingsDepth : Nat := 127

def Options.read (node : Node Nat) : Reading Options := do
  let fields ← node.readFields ["optionalModel", "optionalBindings", "optionalBindOptions",
    "onError", "legacyModelFallthrough"]
  return {
    model := ← readField fields "optionalModel" none (Node.readOptional Node.readText)
    bindings := ← readField fields "optionalBindings" none
      (Node.readOptional (Node.readJson bindingsDepth))
    bindOptions := ← readField fields "optionalBindOptions" none
      (Node.readOptional BindOptions.read)
    onError := ← readField fields "onError" .abort (Node.readChoice ErrorPolicy.ofName?)
    legacyModelFallthrough := ← readField fields "legacyModelFallthrough" false Node.readBool }

def View.ofYaml (text : String) : Except BindError View :=
  match Yaml.read? View.read text with
  | some view => .ok view
  | none => .error .yaml

def Options.ofYaml (text : String) : Except BindError Options :=
  match Yaml.read? Options.read text with
  | some options => .ok options
  | none => .error .yaml

/-! ### Writing -/

def Yaml.Tree.field? (name : String) (value : Option String) : List (String × Tree) :=
  match value with
  | some value => [(name, .text value)]
  | none => []

def Element.toTree (element : Element) : Tree :=
  .mapping <| Tree.field? "tag" element.tag ++ Tree.field? "id" element.id ++
    [("attributes", .mapping (element.attributes.entries.map fun (name, value) =>
      (name, .text value)))]

def View.toYaml (view : View) : String :=
  Yaml.writeMapping <| Tree.field? "model" view.model ++
    [("elements", .sequence (view.elements.map Element.toTree))]

/-! ### From files -/

def View.ofFile (content : Except FileFault String) : Except BindError View :=
  match content with
  | .ok text => ofYaml text
  | .error fault => .error (.unreadable fault)

/-- A file that cannot be read is an error of the configuration. -/
def Options.ofFile (path : String) (content : Except FileFault String) :
    Except BindError Options :=
  match content with
  | .ok text => ofYaml text
  | .error fault =>
    .error (.config ("Failed to read options file " ++ path ++ ": " ++ fault.message))

end DataBind
