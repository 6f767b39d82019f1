import DataBind.Decimal.Binary64

/-!
# JSON values

Numbers are integers, within the range that 64 bits hold with or without a sign, or binary
floating point. The members of an object keep the order in which they are listed.
-/

namespace DataBind

inductive Json
  | null
  | bool (value : Bool)
  | integer (value : Int)
  | float (value : Binary64)
  | string (text : String)
  | array (items : List Json)
  | object (members : List (String × Json))
deriving Repr

namespace Json

/-- The integers that are written without a point. -/
def isInteger (value : Int) : Bool :=
  -0x8000000000000000 ≤ value && value ≤ 0xFFFFFFFFFFFFFFFF

def strings (texts : List String) : Json :=
  array (texts.map string)

/-- A member that is left out when there is no value. -/
def member? {α : Type} (key : String) (value : Option α) (toJson : α → Json) :
    List (String × Json) :=
  match value with
  | some value => [(key, toJson value)]
  | none => []

end Json

end DataBind
