import DataBind.Yaml.Lexer
import DataBind.Yaml.Node

/-!
# Documents with settled aliases

The anchored nodes of a document are numbered in the order in which they begin, by how many
different names were given before. A name that is given again keeps that count as it is, so two
anchors can share a number, and an alias then stands for the later one of them.
-/

namespace DataBind.Yaml

/-- The names given so far, each once, with the number of the node it was given to last. -/
abbrev Anchors := List (String × Nat)

def Anchors.assign (anchors : Anchors) (name : String) : Anchors :=
  (name, anchors.length) :: anchors.filter fun entry => entry.1 != name

/-- The properties with a number for the anchor, and the names given afterwards. -/
def Properties.settle (properties : Properties String) (anchors : Anchors) :
    Properties Nat × Anchors :=
  match properties.anchor with
  | some name => (⟨some anchors.length, properties.tag⟩, anchors.assign name)
  | none => (⟨none, properties.tag⟩, anchors)

mutual

/-- The node with numbers for names; an alias to a name not yet given is refused. -/
def Node.settle? (anchors : Anchors) : Node String → Option (Node Nat × Anchors)
  | .alias name => (anchors.lookup name).map fun number => (.alias number, anchors)
  | .scalar properties style text =>
    let (properties, anchors) := properties.settle anchors
    some (.scalar properties style text, anchors)
  | .sequence properties items =>
    let (properties, anchors) := properties.settle anchors
    (settleItems? anchors items).map fun (items, anchors) => (.sequence properties items, anchors)
  | .mapping properties pairs =>
    let (properties, anchors) := properties.settle anchors
    (settlePairs? anchors pairs).map fun (pairs, anchors) => (.mapping properties pairs, anchors)

def settleItems? (anchors : Anchors) : List (Node String) → Option (List (Node Nat) × Anchors)
  | [] => some ([], anchors)
  | item :: rest =>
    match item.settle? anchors with
    | none => none
    | some (item, anchors) =>
      (settleItems? anchors rest).map fun (rest, anchors) => (item :: rest, anchors)

def settlePairs? (anchors : Anchors) :
    List (Node String × Node String) → Option (List (Node Nat × Node Nat) × Anchors)
  | [] => some ([], anchors)
  | (key, value) :: rest =>
    match key.settle? anchors with
    | none => none
    | some (key, anchors) =>
      match value.settle? anchors with
      | none => none
      | some (value, anchors) =>
        (settlePairs? anchors rest).map fun (rest, anchors) => ((key, value) :: rest, anchors)

end

mutual

/-- The node and all nodes in it, each before those in it. -/
def Node.descendants {ρ : Type} : Node ρ → List (Node ρ)
  | .sequence properties items => .sequence properties items :: itemDescendants items
  | .mapping properties pairs => .mapping properties pairs :: pairDescendants pairs
  | node => [node]

def itemDescendants {ρ : Type} : List (Node ρ) → List (Node ρ)
  | [] => []
  | item :: rest => item.descendants ++ itemDescendants rest

def pairDescendants {ρ : Type} : List (Node ρ × Node ρ) → List (Node ρ)
  | [] => []
  | (key, value) :: rest => key.descendants ++ value.descendants ++ pairDescendants rest

end

def Node.anchor? {ρ : Type} : Node ρ → Option ρ
  | .alias _ => none
  | .scalar properties _ _ | .sequence properties _ | .mapping properties _ => properties.anchor

/-- A collection is opened and closed; all else is one event. -/
def Node.eventCount {ρ : Type} : Node ρ → Nat
  | .sequence _ _ | .mapping _ _ => 2
  | _ => 1

structure Document where
  root : Node Nat
  /-- The anchored nodes with their numbers, the latest first. -/
  anchored : List (Nat × Node Nat)
  /-- How many aliases may be followed while reading. -/
  jumpLimit : Nat

def Document.ofNode (root : Node Nat) : Document where
  root := root
  anchored := (root.descendants.filterMap fun node =>
    node.anchor?.map fun number => (number, node)).reverse
  jumpLimit := 100 * root.descendants.foldl (fun count node => count + node.eventCount) 0

/-- A text without documents holds an empty scalar; more than one document is refused. -/
def Document.ofText? (text : String) : Option Document := do
  match ← documents? (← tokens? text.toList) with
  | [] => some (.ofNode .empty)
  | [root] =>
    let (root, _) ← root.settle? []
    return .ofNode root
  | _ => none

end DataBind.Yaml
