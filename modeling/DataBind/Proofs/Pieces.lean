import DataBind.Text.Pieces

/-!
# Splitting and joining

`split` is the library's `splitOn`, so joining and splitting are inverse on pieces without the
separator. `cut` takes off the first piece. Each fact about lists of characters has its form for
strings after it.
-/

namespace DataBind.Text

variable {sep : Char}

theorem split_eq_splitOn (sep : Char) (cs : List Char) : split sep cs = cs.splitOn sep := by
  induction cs with
  | nil => rfl
  | cons c cs ih =>
    obtain ⟨piece, rest, same⟩ := List.exists_cons_of_ne_nil (split_ne_nil sep cs)
    rw [split, same, List.splitOn_cons_eq_if_modifyHead, ← ih, same]
    by_cases hc : c = sep <;> simp [hc]

theorem split_of_not_mem {cs : List Char} (h : sep ∉ cs) : split sep cs = [cs] := by
  rw [split_eq_splitOn, List.splitOn_eq_singleton h]

theorem split_append {first : List Char} (h : sep ∉ first) (rest : List Char) :
    split sep (first ++ sep :: rest) = first :: split sep rest := by
  rw [split_eq_splitOn, split_eq_splitOn, List.splitOn_append_cons_self_of_not_mem h]

theorem split_append_split (sep : Char) (first rest : List Char) :
    split sep (first ++ sep :: rest) = split sep first ++ split sep rest := by
  simp only [split_eq_splitOn, List.splitOn_append_cons_self]

theorem split_intercalate {pieces : List (List Char)} (free : ∀ piece ∈ pieces, sep ∉ piece)
    (nonempty : pieces ≠ []) : split sep ([sep].intercalate pieces) = pieces := by
  rw [split_eq_splitOn, List.splitOn_intercalate sep free nonempty]

theorem cut_eq_none {cs : List Char} : cut sep cs = none ↔ sep ∉ cs := by
  induction cs with
  | nil => simp [cut]
  | cons c cs ih =>
    by_cases hc : c = sep
    · simp [cut, hc]
    · simp [cut, hc, ih, Ne.symm hc]

theorem cut_append {first : List Char} (h : sep ∉ first) (rest : List Char) :
    cut sep (first ++ sep :: rest) = some (first, rest) := by
  induction first with
  | nil => simp [cut]
  | cons c cs ih =>
    simp only [List.mem_cons, not_or] at h
    simp [cut, Ne.symm h.1, ih h.2]

/-- A text is one piece, or a piece, a separator and the rest. -/
theorem pieces_induction {motive : List Char → Prop} (sep : Char)
    (last : ∀ cs, sep ∉ cs → motive cs)
    (more : ∀ first rest, sep ∉ first → motive rest → motive (first ++ sep :: rest))
    (cs : List Char) : motive cs := by
  cases h : cut sep cs with
  | none => exact last cs (cut_eq_none.mp h)
  | some parts =>
    obtain ⟨first, rest⟩ := parts
    obtain ⟨same, free⟩ := cut_eq_some h
    have shorter : rest.length < cs.length := by simp [same]; omega
    rw [same]
    exact more first rest free (pieces_induction sep last more rest)
termination_by cs.length

theorem not_mem_of_mem_split {cs piece : List Char} (h : piece ∈ split sep cs) : sep ∉ piece := by
  induction cs using pieces_induction sep with
  | last cs free =>
    rw [split_of_not_mem free, List.mem_singleton] at h
    exact h ▸ free
  | more first rest free ih =>
    rw [split_append free, List.mem_cons] at h
    rcases h with rfl | h
    · exact free
    · exact ih h

theorem isInfix_of_mem_split {cs piece : List Char} (h : piece ∈ split sep cs) : piece <:+: cs := by
  induction cs using pieces_induction sep with
  | last cs free =>
    rw [split_of_not_mem free, List.mem_singleton] at h
    exact h ▸ List.infix_rfl
  | more first rest free ih =>
    rw [split_append free, List.mem_cons] at h
    rcases h with h | h
    · exact h ▸ (List.prefix_append first _).isInfix
    · have suffix : rest <:+ first ++ sep :: rest := ⟨first ++ [sep], by simp⟩
      exact (ih h).trans suffix.isInfix

theorem length_split (sep : Char) (cs : List Char) : (split sep cs).length = cs.count sep + 1 := by
  induction cs using pieces_induction sep with
  | last cs free => simp [split_of_not_mem free, List.count_eq_zero_of_not_mem free]
  | more first rest free ih =>
    simp [split_append free, ih, List.count_eq_zero_of_not_mem free]

/-! ### Strings -/

theorem pieces_ne_nil (sep : Char) (text : String) : pieces sep text ≠ [] := by
  simp [pieces, split_ne_nil]

theorem not_mem_of_mem_pieces {text piece : String} (h : piece ∈ pieces sep text) :
    sep ∉ piece.toList := by
  obtain ⟨cs, hcs, rfl⟩ := List.mem_map.mp h
  rw [String.toList_ofList]
  exact not_mem_of_mem_split hcs

theorem isInfix_of_mem_pieces {text piece : String} (h : piece ∈ pieces sep text) :
    piece.toList <:+: text.toList := by
  obtain ⟨cs, hcs, rfl⟩ := List.mem_map.mp h
  rw [String.toList_ofList]
  exact isInfix_of_mem_split hcs

theorem length_pieces (sep : Char) (text : String) :
    (pieces sep text).length = text.toList.count sep + 1 := by
  rw [pieces, List.length_map, length_split]

theorem intercalate_pieces (sep : Char) (text : String) :
    (String.singleton sep).intercalate (pieces sep text) = text := by
  apply String.toList_injective
  simp [pieces, Function.comp_def, intercalate_split]

theorem pieces_intercalate {texts : List String} (free : ∀ text ∈ texts, sep ∉ text.toList)
    (nonempty : texts ≠ []) : pieces sep ((String.singleton sep).intercalate texts) = texts := by
  rw [pieces, String.toList_intercalate, String.toList_singleton, split_intercalate]
  · simp [Function.comp_def]
  · simpa using free
  · simpa using nonempty

theorem pieces_eq_iff {text : String} {texts : List String} (nonempty : texts ≠ []) :
    pieces sep text = texts ↔
      text = (String.singleton sep).intercalate texts ∧ ∀ piece ∈ texts, sep ∉ piece.toList := by
  constructor
  · rintro rfl
    exact ⟨(intercalate_pieces sep text).symm, fun _ => not_mem_of_mem_pieces⟩
  · rintro ⟨rfl, free⟩
    exact pieces_intercalate free nonempty

theorem cutAt_eq_none {text : String} : cutAt sep text = none ↔ sep ∉ text.toList := by
  simp [cutAt, cut_eq_none]

theorem cutAt_eq_some {text before after : String} :
    cutAt sep text = some (before, after) ↔
      text = before ++ String.singleton sep ++ after ∧ sep ∉ before.toList := by
  simp only [cutAt, Option.map_eq_some_iff, Prod.exists, Prod.mk.injEq]
  constructor
  · rintro ⟨first, rest, h, rfl, rfl⟩
    obtain ⟨same, free⟩ := cut_eq_some h
    refine ⟨String.toList_injective ?_, by simpa using free⟩
    simpa using same
  · rintro ⟨rfl, free⟩
    refine ⟨before.toList, after.toList, ?_, by simp, by simp⟩
    simp [cut_append free]

theorem pieces_eq_of_cutAt {text before after : String}
    (h : cutAt sep text = some (before, after)) : pieces sep text = before :: pieces sep after := by
  obtain ⟨rfl, free⟩ := cutAt_eq_some.mp h
  simp [pieces, split_append free]

theorem pieces_append (sep : Char) (first rest : String) :
    pieces sep (first ++ String.singleton sep ++ rest) = pieces sep first ++ pieces sep rest := by
  simp [pieces, split_append_split]

theorem pieces_of_not_mem {text : String} (h : sep ∉ text.toList) : pieces sep text = [text] := by
  simp [pieces, split_of_not_mem h]

end DataBind.Text
