import DataBind.CommandLine.Arguments
import DataBind.View.Options

/-!
# Commands

`compile` and `normalize` take a declaration, `parse` the path of a view.
-/

namespace DataBind.CommandLine

/-- What the arguments of `parse` say over the options of a file. -/
structure Overrides where
  bindAttribute : Option String := none
  modelName : Option String := none
  model : Option String := none
  skipInvalid : Bool := false
deriving DecidableEq, Repr

structure ParseRequest where
  view : String
  options : Option String := none
  overrides : Overrides := {}
  /-- Print the calls of the engine and not the report. -/
  registrations : Bool := false
  /-- Write the view back if it has new ids. -/
  writeIds : Bool := false
deriving DecidableEq, Repr

inductive Command
  | compile (declaration : String) (id : Option String) (options : CompileOptions)
  /-- The specification, not what it is lowered to. -/
  | canonical (declaration : String) (options : CompileOptions)
  | normalize (declaration : String)
  | parse (request : ParseRequest)

namespace Command

def compileGrammar : Grammar where
  flags := ["canonical", "legacy-model-fallthrough"]
  options := ["id"]
  letters := []
  operandIsPath := false
  pathOptions := []

def normalizeGrammar : Grammar where
  flags := []
  options := []
  letters := []
  operandIsPath := false
  pathOptions := []

def parseGrammar : Grammar where
  flags := ["skip-invalid", "registrations", "write-ids"]
  options := ["config", "bind-attribute", "model-name", "model"]
  letters := [('c', "config"), ('m', "model")]
  operandIsPath := true
  pathOptions := ["config"]

def ofCompile (declaration : String) (arguments : Arguments) : Command :=
  let options : CompileOptions := ⟨arguments.has "legacy-model-fallthrough"⟩
  if arguments.has "canonical" then canonical declaration options
  else compile declaration (arguments.option? "id") options

def ofParse (view : String) (arguments : Arguments) : Command :=
  parse {
    view
    options := arguments.option? "config"
    overrides := {
      bindAttribute := arguments.option? "bind-attribute"
      modelName := arguments.option? "model-name"
      model := arguments.option? "model"
      skipInvalid := arguments.has "skip-invalid" }
    registrations := arguments.has "registrations"
    writeIds := arguments.has "write-ids" }

def names : List String := ["compile", "normalize", "parse", "help"]

/-- Help and the version may stand in front of a command. -/
def ofGlobal (argument : String) : Refusal :=
  match argument.toList with
  | '-' :: 'h' :: _ => .help
  | '-' :: 'V' :: _ => .version
  | _ =>
    if argument = "--help" then .help
    else if argument = "--version" then .version
    else .usage

def read : List String → Except Refusal Command
  | [] => .error .usage
  | name :: given =>
    if name = "compile" then
      (Arguments.read compileGrammar given).map fun (operand, arguments) =>
        ofCompile operand arguments
    else if name = "normalize" then
      (Arguments.read normalizeGrammar given).map fun (operand, _) => normalize operand
    else if name = "parse" then
      (Arguments.read parseGrammar given).map fun (operand, arguments) => ofParse operand arguments
    else if name = "help" then
      .error (if given.length ≤ 1 && given.all names.contains then .help else .usage)
    else .error (ofGlobal name)

end Command

end DataBind.CommandLine
