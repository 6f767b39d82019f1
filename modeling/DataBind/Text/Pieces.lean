/-!
# Pieces between separators

`split` cuts at every separator, `cut` at the first one only. `pieces` and `cutAt` are the same
on strings. Joining the pieces with the separator gives the text back.
-/

namespace DataBind.Text

/-- Pieces between separators, empty ones included; a text without one is a single piece. -/
def split (sep : Char) : List Char → List (List Char)
  | [] => [[]]
  | c :: cs =>
    if c = sep then [] :: split sep cs
    else match split sep cs with
      | [] => [[c]]
      | piece :: rest => (c :: piece) :: rest

/-- What stands before and after the first separator. -/
def cut (sep : Char) : List Char → Option (List Char × List Char)
  | [] => none
  | c :: cs =>
    if c = sep then some ([], cs)
    else (cut sep cs).map fun (before, after) => (c :: before, after)

def pieces (sep : Char) (text : String) : List String :=
  (split sep text.toList).map String.ofList

def cutAt (sep : Char) (text : String) : Option (String × String) :=
  (cut sep text.toList).map fun (before, after) => (String.ofList before, String.ofList after)

/-- Some suffix of the second text begins with the first. -/
def occursIn (needle : List Char) : List Char → Bool
  | [] => needle.isEmpty
  | c :: cs => needle.isPrefixOf (c :: cs) || occursIn needle cs

theorem split_ne_nil (sep : Char) (cs : List Char) : split sep cs ≠ [] := by
  cases cs with
  | nil => simp [split]
  | cons c cs =>
    simp only [split]
    split
    · simp
    · split <;> simp

theorem intercalate_split (sep : Char) (cs : List Char) :
    [sep].intercalate (split sep cs) = cs := by
  induction cs with
  | nil => simp [split]
  | cons c cs ih =>
    obtain ⟨piece, rest, h⟩ := List.exists_cons_of_ne_nil (split_ne_nil sep cs)
    rw [h] at ih
    by_cases hc : c = sep
    · subst hc
      simp [split, h, List.intercalate_cons_cons, ih]
    · cases rest with
      | nil => simp_all [split]
      | cons next rest => simp_all [split, List.intercalate_cons_cons]

theorem cut_eq_some {sep : Char} {cs before after : List Char}
    (h : cut sep cs = some (before, after)) :
    cs = before ++ sep :: after ∧ sep ∉ before := by
  induction cs generalizing before with
  | nil => simp [cut] at h
  | cons c cs ih =>
    by_cases hc : c = sep
    · simp_all [cut]
    · simp only [cut, hc, if_false, Option.map_eq_some_iff] at h
      obtain ⟨⟨b, a⟩, hb, hab⟩ := h
      simp only [Prod.mk.injEq] at hab
      obtain ⟨rfl, rfl⟩ := hab
      obtain ⟨rfl, hmem⟩ := ih hb
      exact ⟨by simp, by simp [hmem, Ne.symm hc]⟩

end DataBind.Text
