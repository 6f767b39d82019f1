import DataBind.Filter

/-!
# Binding specifications

What a declaration compiles to: one operand for each operand name, in the order in which the
names first appear. Inserting a name again replaces its operand in place.
-/

namespace DataBind

/-- `[model#]attribute[+attribute...][|filter...]` -/
structure DataBound where
  model : Option String
  attributes : List String
  filters : List Filter
deriving DecidableEq, Repr

inductive Operand
  | dataBound (data : DataBound)
  | events (types : List String)
  /-- `legacy` is the same payload read as data bound, kept on request. -/
  | model (names : List String) (legacy : Option DataBound)
deriving DecidableEq, Repr

def Operand.dataBound? : Operand → Option DataBound
  | dataBound data => some data
  | _ => none

structure Spec where
  entries : List (String × Operand)
deriving DecidableEq, Repr

namespace Spec

def empty : Spec := ⟨[]⟩

/-- Replaces the operand of `name` or appends it; also gives the operand that was replaced. -/
def exchangeEntry (name : String) (operand : Operand) :
    List (String × Operand) → Option Operand × List (String × Operand)
  | [] => (none, [(name, operand)])
  | (other, old) :: rest =>
    if other = name then (some old, (name, operand) :: rest)
    else
      let (replaced, rest) := exchangeEntry name operand rest
      (replaced, (other, old) :: rest)

def exchange (spec : Spec) (name : String) (operand : Operand) : Option Operand × Spec :=
  let (replaced, entries) := exchangeEntry name operand spec.entries
  (replaced, ⟨entries⟩)

def insert (spec : Spec) (name : String) (operand : Operand) : Spec :=
  (spec.exchange name operand).2

def get? (spec : Spec) (name : String) : Option Operand :=
  (spec.entries.find? fun entry => entry.1 == name).map (·.2)

def names (spec : Spec) : List String :=
  spec.entries.map (·.1)

def size (spec : Spec) : Nat :=
  spec.entries.length

end Spec

end DataBind
