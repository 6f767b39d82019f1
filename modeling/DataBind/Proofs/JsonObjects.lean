import DataBind.Binding.Json
import DataBind.Json.Text

/-!
# The texts of JSON collections

Both writers list the members of an object and the items of an array in their order, separated by commas.
-/

namespace DataBind

namespace Json

def compactMember (member : String × Json) : List Char :=
  quoted member.1 ++ ':' :: compactChars member.2

def prettyMember (indent : Nat) (member : String × Json) : List Char :=
  newLine indent ++ quoted member.1 ++ ':' :: ' ' :: prettyChars indent member.2

theorem compactMembers_eq (members : List (String × Json)) :
    compactMembers members = [','].intercalate (members.map compactMember) ++ ['\x7d'] := by
  induction members with
  | nil => simp [compactMembers]
  | cons member rest ih =>
    cases rest with
    | nil => simp [compactMembers, compactMember]
    | cons next rest =>
      rw [compactMembers, ih]
      · simp [compactMember, List.intercalate_cons_cons]
      · simp

theorem prettyMembers_eq (indent : Nat) (members : List (String × Json)) :
    prettyMembers indent members = [','].intercalate (members.map (prettyMember indent)) := by
  induction members with
  | nil => simp [prettyMembers]
  | cons member rest ih =>
    cases rest with
    | nil => simp [prettyMembers, prettyMember]
    | cons next rest =>
      rw [prettyMembers, ih]
      · simp [prettyMember, List.intercalate_cons_cons]
      · simp

theorem compactChars_object (members : List (String × Json)) :
    (object members).compactChars =
      '\x7b' :: [','].intercalate (members.map compactMember) ++ ['\x7d'] := by
  rw [compactChars, compactMembers_eq]
  rfl

theorem prettyChars_object (indent : Nat) (members : List (String × Json)) :
    prettyChars indent (object members) =
      '\x7b' :: [','].intercalate (members.map (prettyMember (indent + 1))) ++
        (if members = [] then [] else newLine indent) ++ ['\x7d'] := by
  cases members with
  | nil => simp [prettyChars]
  | cons member rest => simp [prettyChars, prettyMembers_eq]

/-! ### Arrays -/

def prettyItem (indent : Nat) (item : Json) : List Char :=
  newLine indent ++ prettyChars indent item

theorem compactItems_eq (items : List Json) :
    compactItems items = [','].intercalate (items.map compactChars) ++ [']'] := by
  induction items with
  | nil => simp [compactItems]
  | cons item rest ih =>
    cases rest with
    | nil => simp [compactItems]
    | cons next rest =>
      rw [compactItems, ih]
      · simp [List.intercalate_cons_cons]
      · simp

theorem prettyItems_eq (indent : Nat) (items : List Json) :
    prettyItems indent items = [','].intercalate (items.map (prettyItem indent)) := by
  induction items with
  | nil => simp [prettyItems]
  | cons item rest ih =>
    cases rest with
    | nil => simp [prettyItems, prettyItem]
    | cons next rest =>
      rw [prettyItems, ih]
      · simp [prettyItem, List.intercalate_cons_cons]
      · simp

end Json

/-- The members of a map of bindings, in the order of its entries. -/
def Bindings.members (bindings : Bindings) : List (String × Json) :=
  bindings.entries.map fun entry => (entry.1, entry.2.toJson)

theorem bindingsToJson_eq (bindings : Bindings) :
    bindingsToJson bindings = .object bindings.members := rfl

theorem keys_members (bindings : Bindings) : bindings.members.map (·.1) = bindings.keys := by
  rw [Bindings.members, List.map_map]
  rfl

end DataBind
