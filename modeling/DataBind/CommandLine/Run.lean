import DataBind.CommandLine.Command
import DataBind.Json.Text
import DataBind.Spec.Json
import DataBind.Spec.Text
import DataBind.View.Yaml

/-!
# Running commands

A command acts on a host: it reads files, may rewrite one, prints and warns, each at its place between the steps
that can fail. What a failed command has done before is done.
-/

namespace DataBind.CommandLine

structure FileWrite where
  path : String
  content : String
deriving DecidableEq, Repr

/-- What a program acts on. -/
class Host (m : Type → Type) where
  readFile (path : String) : m (Except FileFault String)
  writeFile (written : FileWrite) : m (Except FileFault Unit)
  print (text : String) : m Unit
  /-- Shows a text apart from what is printed. -/
  warn (text : String) : m Unit

/-! ### Failures -/

inductive Cause
  | bind (error : BindError)
  | unwritten (fault : FileFault)
deriving DecidableEq, Repr

/-- With the causes behind it. -/
def Cause.message : Cause → String
  | bind error =>
    error.message ++ match error with
      | .unreadable fault => ": " ++ fault.message
      | _ => ""
  | unwritten fault => fault.message

def Cause.fix? : Cause → Option String
  | bind error => some error.fix
  | unwritten _ => none

/-- A cause and what was being done when it arose. -/
structure Failure where
  activity : Option String
  cause : Cause
deriving DecidableEq, Repr

def Failure.message (failure : Failure) : String :=
  "Error: " ++
  (match failure.activity with
    | some activity => activity ++ ": "
    | none => "") ++
  failure.cause.message ++ "\n" ++
  match failure.cause.fix? with
  | some fix => "  Fix: " ++ fix ++ "\n"
  | none => ""

/-- Acts on a host and may fail. -/
abbrev CommandT (m : Type → Type) := ExceptT Failure m

variable {m : Type → Type} [Monad m]

instance [Host m] : Host (CommandT m) where
  readFile path := ExceptT.lift (Host.readFile path)
  writeFile written := ExceptT.lift (Host.writeFile written)
  print text := ExceptT.lift (Host.print text)
  warn text := ExceptT.lift (Host.warn text)

def orFail {α : Type} (activity : Option String) (result : Except BindError α) : CommandT m α :=
  ExceptT.mk (pure (result.mapError fun error => ⟨activity, .bind error⟩))

def ofDeclaration {α : Type} (result : Except DeclarationError α) : CommandT m α :=
  orFail none (result.mapError .declaration)

variable [Host m]

def printLine (text : String) : CommandT m Unit :=
  Host.print (text ++ "\n")

/-! ### Declarations -/

def compileDeclaration (declaration : String) (id : Option String) (options : CompileOptions) :
    CommandT m Unit := do
  let (lowered, _) ← ofDeclaration <|
    lowerDeclaration options declaration id (.numbered IdSource.defaultStem) IdSource.firstNumber
  printLine (bindingsToJson lowered.toBindings).pretty

def printCanonical (declaration : String) (options : CompileOptions) : CommandT m Unit := do
  let spec ← ofDeclaration (compile options declaration)
  printLine spec.toJson.pretty

def normalizeDeclaration (declaration : String) : CommandT m Unit := do
  let spec ← ofDeclaration (compile {} declaration)
  printLine spec.text

/-! ### Views -/

def Overrides.apply (overrides : Overrides) (options : Options) : Options :=
  let bindOptions := options.effectiveBindOptions
  { options with
    model := overrides.model.or options.model
    bindOptions :=
      if overrides.bindAttribute.isSome || overrides.modelName.isSome then
        some {
          bindAttribute := overrides.bindAttribute.getD bindOptions.bindAttribute
          modelName := overrides.modelName.or bindOptions.modelName }
      else options.bindOptions
    onError := if overrides.skipInvalid then .skip else options.onError }

def loadOptions (request : ParseRequest) : CommandT m Options := do
  match request.options with
  | some path =>
    let content ← Host.readFile path
    orFail none (Options.ofFile path content)
  | none => return {}

def loadView (path : String) : CommandT m View := do
  let content ← Host.readFile path
  orFail (some ("Failed to load view document " ++ path)) (View.ofFile content)

def skippedLine (skipped : Skipped) : String :=
  "⚠ element #" ++ toString skipped.index ++ " skipped: " ++ skipped.error ++ "\n"

/-- The name of the file has an extension, which is `json`. -/
def isJsonPath (path : String) : Bool :=
  let name := ((Text.split '/' path.toList).getLast?).getD []
  let ending := ['.', 'j', 's', 'o', 'n']
  ending.isSuffixOf name && ending.length < name.length

def writtenView (path : String) (view : View) : FileWrite where
  path := path
  content := if isJsonPath path then view.toJson.pretty else view.toYaml

def saveView (path : String) (view : View) : CommandT m Unit := do
  match ← Host.writeFile (writtenView path view) with
  | .ok _ => return ()
  | .error fault => throw ⟨some ("Failed to write view document " ++ path), .unwritten fault⟩

/-- Loads what is asked for and binds the view. -/
def bindRequested (request : ParseRequest) : CommandT m (BindOutcome UInt64 × Report) := do
  let options ← loadOptions request
  let view ← loadView request.view
  let bound := bindView (request.overrides.apply options) (.numbered IdSource.defaultStem) view
    IdSource.firstNumber []
  let report ← orFail none bound.result
  return (bound, report)

def parseView (request : ParseRequest) : CommandT m Unit := do
  let (bound, report) ← bindRequested request
  report.skipped.forM fun skipped => Host.warn (skippedLine skipped)
  if request.writeIds && report.generatedIds != [] then
    saveView request.view bound.view
  printLine (if request.registrations then logToJson bound.log else report.toJson).pretty

/-! ### The command line -/

def perform : Command → CommandT m Unit
  | .compile declaration id options => compileDeclaration declaration id options
  | .canonical declaration options => printCanonical declaration options
  | .normalize declaration => normalizeDeclaration declaration
  | .parse request => parseView request

def usage : String :=
  "Usage: stickit-parser compile DECLARATION [--id ID] [--canonical] " ++
    "[--legacy-model-fallthrough]\n" ++
  "       stickit-parser normalize DECLARATION\n" ++
  "       stickit-parser parse FILE [-c CONFIG] [--bind-attribute NAME] [--model-name NAME] " ++
    "[-m MODEL] [--skip-invalid] [--registrations] [--write-ids]\n"

def summary : String := "Compile data-bind declarations into stickit bindings\n\n"

def version : String := "stickit-parser 0.1.0\n"

/-- What the program does where there is nothing to run, with the exit code. -/
def Refusal.answer : Refusal → m UInt32
  | help => do
    Host.print (summary ++ CommandLine.usage)
    return 0
  | version => do
    Host.print CommandLine.version
    return 0
  | usage => do
    Host.warn CommandLine.usage
    return 2

/-- The program, with its exit code. -/
def execute (arguments : List String) : m UInt32 := do
  match Command.read arguments with
  | .error refusal => refusal.answer
  | .ok command =>
    match ← (perform command).run with
    | .ok _ => return 0
    | .error failure =>
      Host.warn failure.message
      return 1

end DataBind.CommandLine
