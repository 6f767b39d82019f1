import DataBind.Proofs.ClauseReading

/-!
# Leftmost and longest separators

`SeparatedInto` says what a scan for separators has to leave of a text. It goes to the separator that
begins furthest to the left, takes the longest one that begins there and starts again behind it. Only
one list of pieces can come out of that, and the scanner finds it: on a trimmed declaration these are the
plain clauses.
-/

namespace DataBind

open Text

/-- A comma with blanks on both sides. -/
def IsSeparator (cs : List Char) : Prop :=
  ∃ front back, cs = front ++ ',' :: back ∧ (∀ c ∈ front, isBlank c) ∧ ∀ c ∈ back, isBlank c

structure SeparatorAt (text before separator after : List Char) : Prop where
  stands : text = before ++ (separator ++ after)
  isSeparator : IsSeparator separator

/-- None begins further to the left, and of those that begin here none is longer. -/
structure FirstSeparator (text before separator after : List Char) : Prop extends
    SeparatorAt text before separator after where
  leftmost : ∀ start other rest, SeparatorAt text start other rest → before.length ≤ start.length
  longest : ∀ other rest, SeparatorAt text before other rest → other.length ≤ separator.length

/-- The pieces of a text between its separators, each sought behind the one before. -/
inductive SeparatedInto : List Char → List (List Char) → Prop
  | last {text : List Char} (none : ∀ before separator after, ¬SeparatorAt text before separator after) :
      SeparatedInto text [text]
  | more {text piece separator rest : List Char} {pieces : List (List Char)}
      (first : FirstSeparator text piece separator rest) (tail : SeparatedInto rest pieces) :
      SeparatedInto text (piece :: pieces)

/-! ### One separator -/

theorem not_separatorAt_nil {before separator after : List Char} :
    ¬SeparatorAt [] before separator after := by
  rintro ⟨stands, front, back, rfl, -, -⟩
  simp at stands

theorem separatorAt_cons_iff {c d : Char} {cs before separator after : List Char} :
    SeparatorAt (c :: cs) (d :: before) separator after ↔
      c = d ∧ SeparatorAt cs before separator after := by
  constructor
  · rintro ⟨stands, isSeparator⟩
    obtain ⟨same, rest⟩ := List.cons.inj stands
    exact ⟨same, rest, isSeparator⟩
  · rintro ⟨rfl, rfl, isSeparator⟩
    exact ⟨rfl, isSeparator⟩

/-- Whichever separator a text begins with, the scanner goes on behind all the blanks. -/
theorem SeparatorAt.afterSeparator?_eq {text separator after : List Char}
    (found : SeparatorAt text [] separator after) :
    afterSeparator? text = some (dropBlanks after) := by
  obtain ⟨rfl, front, back, rfl, blankFront, blankBack⟩ := found
  have gone : dropBlanks (back ++ after) = dropBlanks after := List.dropWhile_append_of_pos blankBack
  rw [List.nil_append, List.append_assoc, List.cons_append, afterSeparator?_blanks blankFront, gone]

theorem exists_separatorAt {text rest : List Char} (found : afterSeparator? text = some rest) :
    ∃ separator, SeparatorAt text [] separator rest := by
  unfold afterSeparator? at found
  split at found
  · rename_i tail comma
    cases found
    refine ⟨text.takeWhile isBlank ++ ',' :: tail.takeWhile isBlank, ?_, _, _, rfl, ?_, ?_⟩
    · calc
        text = text.takeWhile isBlank ++ dropBlanks text := List.takeWhile_append_dropWhile.symm
        _ = text.takeWhile isBlank ++ ',' :: (tail.takeWhile isBlank ++ dropBlanks tail) := by
          rw [comma, dropBlanks, List.takeWhile_append_dropWhile]
        _ = _ := by simp
    · intro c member
      exact List.mem_takeWhile_imp member
    · intro c member
      exact List.mem_takeWhile_imp member
  · cases found

theorem exists_firstSeparator {text rest : List Char} (found : afterSeparator? text = some rest) :
    ∃ separator, FirstSeparator text [] separator rest := by
  obtain ⟨separator, here⟩ := exists_separatorAt found
  refine ⟨separator, here, fun _ _ _ _ => Nat.zero_le _, ?_⟩
  intro other after another
  -- Behind any separator that begins here the scanner goes on at the same place, so none ends later.
  have same : dropBlanks after = rest := Option.some.inj (another.afterSeparator?_eq.symm.trans found)
  have behind : (dropBlanks after).length ≤ after.length := length_dropBlanks_le after
  have lengths := congrArg List.length (here.stands.symm.trans another.stands)
  simp only [List.nil_append, List.length_append] at lengths
  rw [same] at behind
  omega

theorem FirstSeparator.cons {c : Char} {cs piece separator rest : List Char}
    (none : afterSeparator? (c :: cs) = none) (first : FirstSeparator cs piece separator rest) :
    FirstSeparator (c :: cs) (c :: piece) separator rest := by
  constructor
  case toSeparatorAt => exact separatorAt_cons_iff.mpr ⟨rfl, first.toSeparatorAt⟩
  case leftmost =>
    intro start other after found
    cases start with
    | nil => simp [found.afterSeparator?_eq] at none
    | cons d start =>
      -- It begins behind the first character, so it stands in the rest as well.
      have earlier := first.leftmost start other after (separatorAt_cons_iff.mp found).2
      exact Nat.succ_le_succ earlier
  case longest =>
    intro other after found
    exact first.longest other after (separatorAt_cons_iff.mp found).2

theorem FirstSeparator.unique {text piece separator rest piece' separator' rest' : List Char}
    (first : FirstSeparator text piece separator rest)
    (other : FirstSeparator text piece' separator' rest') : piece = piece' ∧ rest = rest' := by
  have same : piece ++ (separator ++ rest) = piece' ++ (separator' ++ rest') :=
    first.stands.symm.trans other.stands
  have begins : piece.length = piece'.length :=
    Nat.le_antisymm (first.leftmost _ _ _ other.toSeparatorAt) (other.leftmost _ _ _ first.toSeparatorAt)
  obtain ⟨rfl, behind⟩ := List.append_inj same begins
  have ends : separator.length = separator'.length :=
    Nat.le_antisymm (other.longest _ _ first.toSeparatorAt) (first.longest _ _ other.toSeparatorAt)
  exact ⟨rfl, (List.append_inj behind ends).2⟩

/-! ### The whole text -/

/-- A character at which no separator begins belongs to the piece. -/
theorem SeparatedInto.cons {c : Char} {cs piece : List Char} {pieces : List (List Char)}
    (none : afterSeparator? (c :: cs) = none) (tail : SeparatedInto cs (piece :: pieces)) :
    SeparatedInto (c :: cs) ((c :: piece) :: pieces) := by
  cases tail with
  | last free =>
    apply SeparatedInto.last
    intro before separator after found
    cases before with
    | nil => simp [found.afterSeparator?_eq] at none
    | cons d before => exact free before separator after (separatorAt_cons_iff.mp found).2
  | more first rest => exact .more (first.cons none) rest

theorem separatedInto_splitClauses (text : List Char) : SeparatedInto text (splitClauses text) := by
  -- By the steps of the scanner: the end, a separator, and a character that goes to the next piece.
  fun_induction splitClauses text with
  | case1 => exact .last fun _ _ _ => not_separatorAt_nil
  | case2 c cs rest found ih =>
    obtain ⟨separator, first⟩ := exists_firstSeparator found
    exact .more first ih
  | case3 c cs none empty ih =>
    -- A text always has a piece.
    rw [empty] at ih
    cases ih
  | case4 c cs none clause clauses same ih =>
    rw [same] at ih
    exact ih.cons none

theorem SeparatedInto.unique {text : List Char} {pieces pieces' : List (List Char)}
    (one : SeparatedInto text pieces) (other : SeparatedInto text pieces') : pieces = pieces' := by
  induction one generalizing pieces' with
  | last none =>
    cases other with
    | last => rfl
    | more first => exact absurd first.toSeparatorAt (none _ _ _)
  | more first tail ih =>
    cases other with
    | last none => exact absurd first.toSeparatorAt (none _ _ _)
    | more first' tail' =>
      obtain ⟨rfl, rfl⟩ := first.unique first'
      rw [ih tail']

theorem separatedInto_iff {text : List Char} {pieces : List (List Char)} :
    SeparatedInto text pieces ↔ splitClauses text = pieces := by
  constructor
  · intro separated
    exact (separatedInto_splitClauses text).unique separated
  · rintro rfl
    exact separatedInto_splitClauses text

theorem separatedInto_clauses_iff {text : List Char} {parts : List String} :
    SeparatedInto text (parts.map String.toList) ↔ clauses text = parts := by
  rw [separatedInto_iff, clauses]
  constructor
  · intro same
    simp [same]
  · rintro rfl
    simp [Function.comp_def]

/-! ### Declarations -/

/-- The scan for separators leaves the pieces of a declaration between its commas, each without the blanks
around it. These are all that the compiler looks at, so what stands around them does not matter to it. -/
theorem clauses_between_separators {declaration : String}
    (shown : ¬∀ c ∈ declaration.toList, isBlank c) :
    (∀ parts : List String, SeparatedInto (trim declaration.toList) (parts.map String.toList) ↔
      parts = plainClauses declaration) ∧
    clauses (trim declaration.toList) = plainClauses declaration ∧
    (clauses (trim declaration.toList)).length = declaration.toList.count ',' + 1 ∧
    (∀ clause ∈ clauses (trim declaration.toList),
      ¬BlankAtStart clause ∧ ¬BlankAtEnd clause ∧ ',' ∉ clause.toList) ∧
    ∀ options other, (¬∀ c ∈ other.toList, isBlank c) → plainClauses other = plainClauses declaration →
      compile options other = compile options declaration := by
  have scanned : clauses (trim declaration.toList) = plainClauses declaration := clauses_trim declaration
  refine ⟨?_, scanned, ?_, ?_, ?_⟩
  · intro parts
    rw [separatedInto_clauses_iff, scanned, eq_comm]
  · rw [scanned, plainClauses, List.length_map, length_pieces]
  · intro clause member
    rw [scanned] at member
    obtain ⟨piece, -, rfl⟩ := List.mem_map.mp member
    exact ⟨not_blankAtStart_strip piece, not_blankAtEnd_strip piece, comma_not_mem_of_mem_plainClauses member⟩
  · intro options other shownToo same
    rw [compile_eq (mt trim_eq_nil_iff.mp shownToo), compile_eq (mt trim_eq_nil_iff.mp shown), same]

/-- Two commas share the blanks between them, and nothing stands before the first and behind the last. -/
def sparseDeclaration : String :=
  "\u2003, \t,\u00a0value:a b\u3000 ,class:c|-d\n, "

def sparseClauses : List String :=
  ["", "", "value:a b", "class:c|-d", ""]

theorem clauses_between_separators_sparse :
    (¬∀ c ∈ sparseDeclaration.toList, isBlank c) ∧
      SeparatedInto (trim sparseDeclaration.toList) (sparseClauses.map String.toList) ∧
      clauses (trim sparseDeclaration.toList) = sparseClauses ∧
      compile {} sparseDeclaration =
        .error (.malformed "" "expected exactly one ':' separator, found 0") ∧
      compile {} ",,value:a b,class:c|-d," = compile {} sparseDeclaration := by
  have shown : ¬∀ c ∈ sparseDeclaration.toList, isBlank c :=
    mt trim_eq_nil_iff.mpr (by decide +kernel)
  have shownToo : ¬∀ c ∈ ",,value:a b,class:c|-d,".toList, isBlank c :=
    mt trim_eq_nil_iff.mpr (by decide +kernel)
  have plain : plainClauses sparseDeclaration = sparseClauses := by decide +kernel
  have alike : plainClauses ",,value:a b,class:c|-d," = plainClauses sparseDeclaration := by decide +kernel
  obtain ⟨separated, scanned, -, -, compiled⟩ := clauses_between_separators shown
  refine ⟨shown, (separated sparseClauses).mpr plain.symm, scanned.trans plain, ?_, ?_⟩
  · decide +kernel
  · exact compiled {} _ shownToo alike

end DataBind
