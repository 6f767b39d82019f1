import DataBind.Clause
import DataBind.Text.Blank

/-!
# Declarations

A declaration is a list of clauses. A comma separates two clauses, together with the blanks on
both sides of it. Clauses are read from left to right and the first bad one is the error.
-/

namespace DataBind

/-- The rest after a comma and the blanks around it, if the text begins with them. -/
def afterSeparator? (cs : List Char) : Option (List Char) :=
  match Text.dropBlanks cs with
  | ',' :: rest => some (Text.dropBlanks rest)
  | _ => none

theorem length_afterSeparator {cs rest : List Char} (h : afterSeparator? cs = some rest) :
    rest.length < cs.length := by
  unfold afterSeparator? at h
  split at h
  · rename_i tail heq
    have hcs := Text.length_dropBlanks_le cs
    have htail := Text.length_dropBlanks_le tail
    simp only [heq, List.length_cons] at hcs
    simp only [Option.some.injEq] at h
    subst h
    omega
  · simp at h

/-- Scans for separators from left to right, each as long as it can be. -/
def splitClauses : List Char → List (List Char)
  | [] => [[]]
  | c :: cs =>
    match _h : afterSeparator? (c :: cs) with
    | some rest => [] :: splitClauses rest
    | none =>
      match splitClauses cs with
      | [] => [[c]]
      | clause :: clauses => (c :: clause) :: clauses
termination_by cs => cs.length
decreasing_by
  · exact length_afterSeparator _h
  · simp

/-- The clauses of a declaration that is already trimmed. -/
def clauses (trimmed : List Char) : List String :=
  (splitClauses trimmed).map String.ofList

/-- Any bad clause refuses the whole declaration. -/
def compile (options : CompileOptions) (declaration : String) : Except DeclarationError Spec :=
  match Text.trim declaration.toList with
  | [] => .error (.empty declaration)
  | trimmed => (clauses trimmed).foldlM (Spec.addClause options) Spec.empty

end DataBind
