import DataBind.View.Bind

/-!
# Sessions

A session keeps one view, one id source and one engine. The view is bound as often as wanted, and in
between elements are appended to it and its model is set or cleared.
-/

namespace DataBind

variable {σ : Type}

structure Session (σ : Type) where
  view : View
  ids : σ
  log : List Registration

inductive SessionStep
  | bind (options : Options)
  | append (element : Element)
  | setModel (model : Option String)

/-- The elements that a step brings into the view. -/
def SessionStep.supplied : SessionStep → List Element
  | bind _ => []
  | append element => [element]
  | setModel _ => []

namespace Session

def step (ids : IdSource σ) (session : Session σ) : SessionStep → Session σ
  | .bind options =>
    let outcome := bindView options ids session.view session.ids session.log
    ⟨outcome.view, outcome.ids, outcome.log⟩
  | .append element =>
    { session with view := { session.view with elements := session.view.elements ++ [element] } }
  | .setModel model => { session with view := { session.view with model } }

def run (ids : IdSource σ) (session : Session σ) (steps : List SessionStep) : Session σ :=
  steps.foldl (step ids) session

/-- The elements of the view as they came in, at the start or by a step. -/
def supplied (session : Session σ) (steps : List SessionStep) : List Element :=
  session.view.elements ++ steps.flatMap SessionStep.supplied

end Session

end DataBind
