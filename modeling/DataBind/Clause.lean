import DataBind.Spec.Basic

/-!
# Clauses

A clause is `operand:payload`. The operand name picks the grammar of the payload: names for
`events` and `model`, a data-bound payload for every other operand.
-/

namespace DataBind

structure CompileOptions where
  /-- Also read the payload of `model` as data bound, and refuse it if it is not. -/
  legacyModelFallthrough : Bool := false
deriving DecidableEq, Repr

/-- The model before the first `#`, if there is one, and the rest. -/
def modelQualifier (payload : String) : Option String × String :=
  match Text.cutAt '#' payload with
  | some (model, rest) => (some model, rest)
  | none => (none, payload)

structure AttributeList where
  attributes : List String
  /-- All that follows the first `|`. -/
  chain : Option String
deriving DecidableEq, Repr

def AttributeList.ofNames (expression names : String) (chain : Option String) :
    Except DeclarationError AttributeList :=
  if names = "" then .error (.malformed expression "at least one model attribute is required")
  else .ok ⟨Text.pieces '+' names, chain⟩

def AttributeList.parse (expression : String) : Except DeclarationError AttributeList :=
  match Text.cutAt '|' expression with
  | some (names, chain) => ofNames expression names (some chain)
  | none => ofNames expression expression none

def DataBound.parse (payload : String) : Except DeclarationError DataBound := do
  let (model, expression) := modelQualifier payload
  let list ← AttributeList.parse expression
  let filters ← Filter.parseChain list.chain
  return ⟨model, list.attributes, filters⟩

/-- Event types; empty ones are kept. -/
def eventTypes (payload : String) : Except DeclarationError (List String) :=
  match Text.pieces '+' payload with
  | [] => .error (.noEvents payload)
  | types => .ok types

/-- Model names; empty ones are kept, so the list is never empty. -/
def modelNames (payload : String) : List String :=
  Text.pieces '+' payload

def Operand.parse (options : CompileOptions) (name payload : String) :
    Except DeclarationError Operand :=
  if name = "events" then (eventTypes payload).map .events
  else if name = "model" then
    if options.legacyModelFallthrough then
      (DataBound.parse payload).map fun data => .model (modelNames payload) (some data)
    else .ok (.model (modelNames payload) none)
  else (DataBound.parse payload).map .dataBound

/-- Reads one clause into the specification; a clause that is refused changes nothing. -/
def Spec.addClause (options : CompileOptions) (spec : Spec) (clause : String) :
    Except DeclarationError Spec :=
  match Text.pieces ':' clause with
  | [name, payload] => (Operand.parse options name payload).map (spec.insert name)
  | parts =>
    .error (.malformed clause
      ("expected exactly one ':' separator, found " ++ toString (parts.length - 1)))

end DataBind
