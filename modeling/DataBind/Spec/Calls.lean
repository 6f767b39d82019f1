import DataBind.Clause

/-!
# Calls on a specification

A specification under construction takes clauses and operands one call at a time. The calls work on it in
place: what a call has changed before an error stays changed.
-/

namespace DataBind

/-- Works on a specification in place and may end with an error. -/
abbrev SpecM := ExceptT DeclarationError (StateM Spec)

namespace SpecM

/-- Gives the operand that was replaced. -/
def insert (name : String) (operand : Operand) : SpecM (Option Operand) :=
  modifyGet fun spec => spec.exchange name operand

def read (options : CompileOptions) (clause : String) : SpecM Unit := do
  match Text.pieces ':' clause with
  | [name, payload] =>
    let operand ← ofExcept (Operand.parse options name payload)
    discard (insert name operand)
  | parts =>
    throw (.malformed clause
      ("expected exactly one ':' separator, found " ++ toString (parts.length - 1)))

end SpecM

inductive SpecCall
  | read (clause : String)
  | insert (name : String) (operand : Operand)

namespace SpecCall

/-- Reading a clause answers nothing. -/
abbrev Answer := Except DeclarationError (Option Operand)

def answer (options : CompileOptions) : SpecCall → SpecM (Option Operand)
  | read clause => do
    SpecM.read options clause
    return none
  | insert name operand => SpecM.insert name operand

def perform (options : CompileOptions) (call : SpecCall) (spec : Spec) : Answer × Spec :=
  (call.answer options).run.run spec

/-- Each call works on what the calls before it have left. -/
def performAll (options : CompileOptions) : List SpecCall → Spec → List Answer × Spec
  | [], spec => ([], spec)
  | call :: calls, spec =>
    let (answer, next) := call.perform options spec
    let (answers, last) := performAll options calls next
    (answer :: answers, last)

end SpecCall

end DataBind
