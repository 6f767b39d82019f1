import DataBind.Binding.Basic

/-!
# Calls on two maps of bindings

Two maps of bindings are filled side by side. A call inserts a binding into one of them, or copies the other
one into it.
-/

namespace DataBind

inductive Side
  | left
  | right
deriving DecidableEq, Repr

def Side.other : Side → Side
  | left => right
  | right => left

structure BindingsPair where
  left : Bindings
  right : Bindings
deriving DecidableEq

namespace BindingsPair

def empty : BindingsPair := ⟨KeyMap.empty, KeyMap.empty⟩

def on (pair : BindingsPair) : Side → Bindings
  | .left => pair.left
  | .right => pair.right

def replace (pair : BindingsPair) (side : Side) (map : Bindings) : BindingsPair :=
  match side with
  | .left => { pair with left := map }
  | .right => { pair with right := map }

end BindingsPair

inductive BindingsCall
  | insert (side : Side) (selector : String) (binding : ElementBinding)
  /-- Writes every entry of the other map over the map of this side. -/
  | extend (side : Side)

namespace BindingsCall

/-- Inserting answers the binding that was replaced, copying answers nothing. -/
def perform (pair : BindingsPair) : BindingsCall → Option ElementBinding × BindingsPair
  | insert side selector binding =>
    let (replaced, map) := (pair.on side).exchange selector binding
    (replaced, pair.replace side map)
  | extend side => (none, pair.replace side ((pair.on side).extend (pair.on side.other)))

/-- Each call works on the maps that the calls before it have left. -/
def performAll (calls : List BindingsCall) (pair : BindingsPair) : BindingsPair :=
  calls.foldl (fun pair call => (call.perform pair).2) pair

end BindingsCall

end DataBind
