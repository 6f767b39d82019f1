import DataBind.Declaration
import DataBind.Proofs.Blanks
import DataBind.Proofs.Pieces

/-!
# Splitting a declaration into clauses

The scanner for separators takes a comma together with the blanks around it. On a trimmed
declaration it finds what a plain split at every comma finds, each piece trimmed.
-/

namespace DataBind

open Text

/-- The pieces of a declaration between commas, without the blanks around them. -/
def plainClauses (declaration : String) : List String :=
  (pieces ',' declaration).map strip

theorem afterSeparator?_blanks {blanks : List Char} (h : ∀ c ∈ blanks, isBlank c)
    (rest : List Char) : afterSeparator? (blanks ++ ',' :: rest) = some (dropBlanks rest) := by
  have comma : dropBlanks (blanks ++ ',' :: rest) = ',' :: rest := by
    rw [dropBlanks, List.dropWhile_append_of_pos h, List.dropWhile_cons_of_neg (by decide)]
  rw [afterSeparator?, comma]
  rfl

theorem afterSeparator?_of_head {cs : List Char} (h : (dropBlanks cs).head? ≠ some ',') :
    afterSeparator? cs = none := by
  unfold afterSeparator?
  split
  · rename_i rest same
    exact absurd (congrArg List.head? same) h
  · rfl

theorem afterSeparator?_text {first : List Char} (free : ',' ∉ first)
    (h : ¬∀ c ∈ first, isBlank c) (rest : List Char) : afterSeparator? (first ++ rest) = none := by
  obtain ⟨c, cs, same⟩ := List.exists_cons_of_ne_nil (mt dropBlanks_eq_nil_iff.mp h)
  have member : c ∈ first :=
    (List.dropWhile_suffix isBlank).subset (same.symm ▸ List.mem_cons_self : c ∈ dropBlanks first)
  apply afterSeparator?_of_head
  rw [dropBlanks_append h, same]
  intro comma
  exact free (Option.some.inj comma ▸ member)

theorem afterSeparator?_of_not_mem {cs : List Char} (free : ',' ∉ cs) : afterSeparator? cs = none := by
  apply afterSeparator?_of_head
  intro comma
  exact free ((List.dropWhile_suffix isBlank).subset (List.mem_of_mem_head? comma))

theorem splitClauses_nil : splitClauses [] = [[]] := by
  rw [splitClauses.eq_def]

theorem splitClauses_separator {c : Char} {cs rest : List Char}
    (found : afterSeparator? (c :: cs) = some rest) :
    splitClauses (c :: cs) = [] :: splitClauses rest := by
  rw [splitClauses.eq_def]
  dsimp only
  split
  · rename_i after same
    rw [found] at same
    cases same
    rfl
  · rename_i same
    rw [found] at same
    cases same

theorem splitClauses_text {c : Char} {cs clause : List Char} {clauses : List (List Char)}
    (none : afterSeparator? (c :: cs) = none) (tail : splitClauses cs = clause :: clauses) :
    splitClauses (c :: cs) = (c :: clause) :: clauses := by
  rw [splitClauses.eq_def]
  dsimp only
  split
  · rename_i after same
    rw [none] at same
    cases same
  · rw [tail]

theorem splitClauses_of_not_mem {cs : List Char} (free : ',' ∉ cs) : splitClauses cs = [cs] := by
  induction cs with
  | nil => exact splitClauses_nil
  | cons c cs ih =>
    have inside : ',' ∉ cs := fun h => free (List.mem_cons_of_mem c h)
    exact splitClauses_text (afterSeparator?_of_not_mem free) (ih inside)

/-- The blanks on both sides of the first comma go with it. -/
theorem splitClauses_append {first : List Char} (free : ',' ∉ first) (rest : List Char) :
    splitClauses (first ++ ',' :: rest) =
      dropBlanksEnd first :: splitClauses (dropBlanks rest) := by
  induction first with
  | nil =>
    have found := afterSeparator?_blanks (List.forall_mem_nil _) rest
    exact splitClauses_separator found
  | cons c cs ih =>
    have inside : ',' ∉ cs := fun h => free (List.mem_cons_of_mem c h)
    by_cases all : ∀ x ∈ c :: cs, isBlank x
    · rw [dropBlanksEnd_eq_nil_iff.mpr all]
      exact splitClauses_separator (afterSeparator?_blanks all rest)
    · rw [dropBlanksEnd_cons all]
      exact splitClauses_text (afterSeparator?_text free all (',' :: rest)) (ih inside)

/-- The scanner on a trimmed text against the plain split. -/
theorem splitClauses_trim (cs : List Char) : splitClauses (trim cs) = (split ',' cs).map trim := by
  induction cs using pieces_induction ',' with
  | last cs free =>
    have inside : ',' ∉ trim cs := fun h => free ((trim_isInfix cs).subset h)
    rw [splitClauses_of_not_mem inside, split_of_not_mem free, List.map_singleton]
  | more first rest free ih =>
    have inside : ',' ∉ dropBlanks first :=
      fun h => free ((List.dropWhile_suffix isBlank).subset h)
    -- The scanner drops the blanks at the comma; trimming dropped those at the ends before.
    rw [trim_append (by decide), splitClauses_append inside, dropBlanks_dropBlanksEnd, ← trim, ← trim, ih,
      split_append free, List.map_cons]

theorem clauses_trim (declaration : String) :
    clauses (trim declaration.toList) = plainClauses declaration := by
  rw [clauses, splitClauses_trim, plainClauses, pieces, List.map_map, List.map_map]
  refine List.map_congr_left fun piece _ => ?_
  simp [strip]

theorem strip_of_mem_plainClauses {declaration clause : String}
    (h : clause ∈ plainClauses declaration) : strip clause = clause := by
  obtain ⟨piece, _, rfl⟩ := List.mem_map.mp h
  exact strip_strip piece

theorem comma_not_mem_of_mem_plainClauses {declaration clause : String}
    (h : clause ∈ plainClauses declaration) : ',' ∉ clause.toList := by
  obtain ⟨piece, hpiece, rfl⟩ := List.mem_map.mp h
  intro comma
  rw [strip, String.toList_ofList] at comma
  exact not_mem_of_mem_pieces hpiece ((trim_isInfix _).subset comma)

theorem isInfix_of_mem_plainClauses {declaration clause : String}
    (h : clause ∈ plainClauses declaration) : clause.toList <:+: declaration.toList := by
  obtain ⟨piece, hpiece, rfl⟩ := List.mem_map.mp h
  rw [strip, String.toList_ofList]
  exact (trim_isInfix _).trans (isInfix_of_mem_pieces hpiece)

theorem plainClauses_intercalate {clauses : List String} (nonempty : clauses ≠ [])
    (free : ∀ clause ∈ clauses, ',' ∉ clause.toList)
    (trimmed : ∀ clause ∈ clauses, strip clause = clause) :
    plainClauses (",".intercalate clauses) = clauses := by
  have split : pieces ',' (",".intercalate clauses) = clauses := pieces_intercalate free nonempty
  rw [plainClauses, split]
  exact (List.map_congr_left trimmed).trans (List.map_id clauses)

end DataBind
