import DataBind.Binding.Json
import DataBind.Binding.Lower
import DataBind.Declaration
import DataBind.Ids
import DataBind.View.Options

/-!
# Binding a view

`bindView` compiles the declaration of every selected element, gives an id to each that has none,
merges the bindings by selector and registers them with the engine, after the bindings of the
caller. A bad declaration ends the run or is reported and skipped. Ids written before the end of
an aborted run stay.
-/

namespace DataBind

variable {σ : Type}

/-- The binding of one element and the id it is keyed under. -/
structure LoweredBinding where
  elementId : String
  /-- The id was taken from the id source. -/
  generated : Bool
  binding : ElementBinding
deriving DecidableEq, Repr

namespace LoweredBinding

def selector (lowered : LoweredBinding) : String :=
  selectorFor lowered.elementId

/-- The id that has to be written onto the element. -/
def idToPersist? (lowered : LoweredBinding) : Option String :=
  if lowered.generated then some lowered.elementId else none

def toBindings (lowered : LoweredBinding) : Bindings :=
  KeyMap.empty.insert lowered.selector lowered.binding

end LoweredBinding

/-- Takes an id only for an element that has none. -/
def Spec.lowerFor (spec : Spec) (id : Option String) (ids : IdSource σ) (state : σ) :
    LoweredBinding × σ :=
  match id with
  | some id => (⟨id, false, spec.lower⟩, state)
  | none =>
    let (id, state) := ids.next state
    (⟨id, true, spec.lower⟩, state)

/-- A declaration that is refused takes no id. -/
def lowerDeclaration (options : CompileOptions) (declaration : String) (id : Option String)
    (ids : IdSource σ) (state : σ) : Except DeclarationError (LoweredBinding × σ) :=
  (compile options declaration).map fun spec => spec.lowerFor id ids state

structure Skipped where
  /-- Position in the list of elements. -/
  index : Nat
  declaration : String
  error : String
deriving DecidableEq, Repr

structure Report where
  model : String
  bindings : Bindings
  generatedIds : List String
  skipped : List Skipped
deriving DecidableEq

/-- A call that the engine received. -/
inductive Registration
  | own (model : String) (bindings : Option Json)
  | added (model : String) (bindings : Bindings)

/-- The bindings that were added last. -/
def lastAdded? (log : List Registration) : Option Bindings :=
  log.reverse.findSome? fun
    | .added _ bindings => some bindings
    | .own _ _ => none

/-- What a run over elements has brought so far. -/
structure Progress (σ : Type) where
  ids : σ
  bindings : Bindings
  generatedIds : List String
  skipped : List Skipped

namespace Progress

def start (ids : σ) : Progress σ := ⟨ids, KeyMap.empty, [], []⟩

def bind (progress : Progress σ) (lowered : LoweredBinding) (ids : σ) : Progress σ :=
  { progress with
    ids
    bindings := progress.bindings.extend lowered.toBindings
    generatedIds := progress.generatedIds ++ lowered.idToPersist?.toList }

def skip (progress : Progress σ) (index : Nat) (declaration : String) (cause : DeclarationError) :
    Progress σ :=
  { progress with skipped := progress.skipped ++ [⟨index, declaration, cause.message⟩] }

end Progress

def Element.bound (element : Element) (lowered : LoweredBinding) : Element :=
  match lowered.idToPersist? with
  | some id => { element with id := some id }
  | none => element

structure BindRules where
  selector : Selector
  compileOptions : CompileOptions
  onError : ErrorPolicy

def Options.rules (options : Options) : BindRules where
  selector := Selector.ofOptions options.effectiveBindOptions
  compileOptions := options.compileOptions
  onError := options.onError

/-- The elements afterwards, what the run has brought, and the error that ended it early. -/
def bindElements (rules : BindRules) (ids : IdSource σ) :
    List Element → Nat → Progress σ → List Element × Progress σ × Option DeclarationError
  | [], _, progress => ([], progress, none)
  | element :: rest, index, progress =>
    match rules.selector.declaration? element with
    | none =>
      let (rest, outcome) := bindElements rules ids rest (index + 1) progress
      (element :: rest, outcome)
    | some declaration =>
      match lowerDeclaration rules.compileOptions declaration element.id ids progress.ids with
      | .ok (lowered, state) =>
        let (rest, outcome) := bindElements rules ids rest (index + 1) (progress.bind lowered state)
        (element.bound lowered :: rest, outcome)
      | .error cause =>
        match rules.onError with
        | .abort => (element :: rest, progress, some cause)
        | .skip =>
          let (rest, outcome) :=
            bindElements rules ids rest (index + 1) (progress.skip index declaration cause)
          (element :: rest, outcome)

/-- A view after a run, with the id source and the engine's log. -/
structure BindOutcome (σ : Type) where
  view : View
  ids : σ
  log : List Registration
  result : Except BindError Report

def View.resolvedModel? (view : View) (options : Options) : Option String :=
  options.model.or view.model

def noModel : BindError :=
  .config "no model to bind: pass optionalModel or set the view's model"

def bindView (options : Options) (ids : IdSource σ) (view : View) (state : σ)
    (log : List Registration) : BindOutcome σ :=
  match view.resolvedModel? options with
  | none => ⟨view, state, log, .error noModel⟩
  | some model =>
    let log := log ++ [.own model options.bindings]
    let (elements, progress, failure) :=
      bindElements options.rules ids view.elements 0 (.start state)
    let view := { view with elements }
    match failure with
    | some cause => ⟨view, progress.ids, log, .error (.declaration cause)⟩
    | none =>
      ⟨view, progress.ids, log ++ [.added model progress.bindings],
        .ok ⟨model, progress.bindings, progress.generatedIds, progress.skipped⟩⟩

end DataBind
