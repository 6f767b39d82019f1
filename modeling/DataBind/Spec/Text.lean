import DataBind.Spec.Basic

/-!
# The normal form of a declaration

`Spec.text` writes a specification as clauses `operand:payload` separated by commas. The legacy
reading of a model operand is not written.
-/

namespace DataBind

def DataBound.text (data : DataBound) : String :=
  (match data.model with
    | some model => model ++ "#"
    | none => "") ++
  "+".intercalate data.attributes ++
  String.join (data.filters.map fun filter => "|" ++ filter.text)

def Operand.text : Operand → String
  | dataBound data => data.text
  | events types => "+".intercalate types
  | model names _ => "+".intercalate names

def Spec.text (spec : Spec) : String :=
  ",".intercalate (spec.entries.map fun (name, operand) => name ++ ":" ++ operand.text)

end DataBind
