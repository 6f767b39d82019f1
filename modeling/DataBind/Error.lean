/-!
# Errors

`DeclarationError` is what a declaration can be refused for, with the offending text.
`BindError` adds what can go wrong around declarations: configuration, files and documents.
Each has a message and a suggested fix.
-/

namespace DataBind

inductive DeclarationError
  | empty (declaration : String)
  | malformed (clause reason : String)
  | badFilter (token : String)
  | noEvents (payload : String)
deriving DecidableEq, Repr

namespace DeclarationError

def message : DeclarationError → String
  | empty declaration => "BIND-001: Empty binding declaration: '" ++ declaration ++ "'"
  | malformed clause reason => "BIND-010: Malformed operand '" ++ clause ++ "': " ++ reason
  | badFilter token => "BIND-020: Bad filter format: '" ++ token ++ "'"
  | noEvents payload => "BIND-030: No event types in events declaration: '" ++ payload ++ "'"

def fix : DeclarationError → String
  | empty _ => "Add at least one clause, e.g. data-bind=\"value:name\""
  | malformed _ _ => "Use format: operand:[model#]attribute[+attribute][|filter]"
  | badFilter _ =>
    "Put exactly one + (formatter) or - (filter) before or after the function name, " ++
      "e.g. +format or parse-"
  | noEvents _ => "List event names separated by +, e.g. events:blur+keyup"

end DeclarationError

/-- Why a file gives no text, or takes none. -/
inductive FileFault
  | notFound
  | isDirectory
  | notDirectory
  | permissionDenied
  | notText
deriving DecidableEq, Repr

def FileFault.message : FileFault → String
  | notFound => "No such file or directory (os error 2)"
  | isDirectory => "Is a directory (os error 21)"
  | notDirectory => "Not a directory (os error 20)"
  | permissionDenied => "Permission denied (os error 13)"
  | notText => "stream did not contain valid UTF-8"

inductive BindError
  | declaration (cause : DeclarationError)
  | config (reason : String)
  | unreadable (fault : FileFault)
  /-- A text that is no YAML, or YAML of another shape. -/
  | yaml
  /-- A JSON value of another shape. -/
  | json
deriving DecidableEq, Repr

namespace BindError

def message : BindError → String
  | declaration cause => cause.message
  | config reason => "BIND-050: Configuration error: " ++ reason
  | unreadable fault => "IO error: " ++ fault.message
  | yaml => "YAML parse error"
  | json => "JSON error"

def fix : BindError → String
  | declaration cause => cause.fix
  | config _ => "Check the options file and the --model flag"
  | unreadable _ => "Check file path and permissions"
  | yaml => "Check YAML syntax: indentation and quoting"
  | json => "Check that optionalBindings is valid JSON"

def isDeclarationError : BindError → Bool
  | declaration _ => true
  | _ => false

end BindError

end DataBind
