import DataBind.Text.Pieces

/-!
# Arguments of the command line

A command takes one operand, flags, and options with a value, in any order. A flag or option is
given once at most. `--name value`, `--name=value`, `-n value`, `-nvalue` and `-n=value` are the
ways to give an option; a value on its own may begin with a dash only if it is a single dash.
After `--` everything is an operand.
-/

namespace DataBind.CommandLine

/-- What a command accepts besides its operand. -/
structure Grammar where
  flags : List String
  options : List String
  /-- Letters that stand for options. -/
  letters : List (Char × String)
  /-- The operand is a path. -/
  operandIsPath : Bool
  pathOptions : List String

/-- What was given before some argument. -/
structure Arguments where
  operand : Option String := none
  flags : List String := []
  options : List (String × String) := []
  /-- An option whose value is to follow. -/
  awaiting : Option String := none
  /-- Everything from here on is an operand. -/
  operandsOnly : Bool := false

/-- Why there is nothing to run. -/
inductive Refusal
  | help
  | version
  | usage
deriving DecidableEq, Repr

namespace Arguments

def has (arguments : Arguments) (flag : String) : Bool :=
  arguments.flags.contains flag

def option? (arguments : Arguments) (name : String) : Option String :=
  arguments.options.lookup name

def addOperand (grammar : Grammar) (arguments : Arguments) (value : String) :
    Except Refusal Arguments :=
  if arguments.operand.isSome || (grammar.operandIsPath && value == "") then .error .usage
  else .ok { arguments with operand := some value }

def addFlag (arguments : Arguments) (name : String) : Except Refusal Arguments :=
  if arguments.has name then .error .usage
  else .ok { arguments with flags := name :: arguments.flags }

def addOption (grammar : Grammar) (arguments : Arguments) (name value : String) :
    Except Refusal Arguments :=
  if (arguments.option? name).isSome || (grammar.pathOptions.contains name && value == "") then
    .error .usage
  else .ok { arguments with options := (name, value) :: arguments.options, awaiting := none }

/-- An option with the value that came along, or one that waits for it. -/
def openOption (grammar : Grammar) (arguments : Arguments) (name : String)
    (value : Option String) : Except Refusal Arguments :=
  match value with
  | some value => arguments.addOption grammar name value
  | none => .ok { arguments with awaiting := some name }

/-- An argument after two dashes. -/
def addLong (grammar : Grammar) (arguments : Arguments) (written : String) :
    Except Refusal Arguments :=
  let (name, value) := match Text.cutAt '=' written with
    | some (name, value) => (name, some value)
    | none => (written, none)
  if grammar.options.contains name then arguments.openOption grammar name value
  else if value.isSome then .error .usage
  else if name = "help" then .error .help
  else if grammar.flags.contains name then arguments.addFlag name
  else .error .usage

/-- An argument after one dash. -/
def addShort (grammar : Grammar) (arguments : Arguments) (letter : Char) (rest : List Char) :
    Except Refusal Arguments :=
  match grammar.letters.lookup letter with
  | some name =>
    arguments.openOption grammar name <| match rest with
      | [] => none
      | '=' :: value => some (String.ofList value)
      | value => some (String.ofList value)
  | none => .error (if letter = 'h' then .help else .usage)

def add (grammar : Grammar) (arguments : Arguments) (argument : String) :
    Except Refusal Arguments :=
  if arguments.operandsOnly then arguments.addOperand grammar argument
  else match argument.toList, arguments.awaiting with
    | '-' :: _ :: _, some _ => .error .usage
    | ['-', '-'], none => .ok { arguments with operandsOnly := true }
    | '-' :: '-' :: long, none => arguments.addLong grammar (String.ofList long)
    | '-' :: letter :: rest, none => arguments.addShort grammar letter rest
    | _, some name => arguments.addOption grammar name argument
    | _, none => arguments.addOperand grammar argument

/-- The operand and what was given with it. -/
def read (grammar : Grammar) (given : List String) : Except Refusal (String × Arguments) := do
  let arguments ← given.foldlM (add grammar) {}
  match arguments.operand, arguments.awaiting with
  | some operand, none => return (operand, arguments)
  | _, _ => throw .usage

end Arguments

end DataBind.CommandLine
