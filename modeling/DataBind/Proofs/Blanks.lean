import DataBind.Text.Blank
import Mathlib.Data.List.DropRight

/-!
# Trimming

`dropBlanksEnd` and `trim` get lemmas for adding a character or a text at either end. Dropping
blanks in front and dropping them at the end commute, and a trimmed text has nothing left to trim.
-/

namespace DataBind.Text

/-- The text without the blanks around it. -/
def strip (text : String) : String :=
  String.ofList (trim text.toList)

theorem dropBlanks_eq_nil_iff {cs : List Char} : dropBlanks cs = [] ↔ ∀ c ∈ cs, isBlank c :=
  List.dropWhile_eq_nil_iff

theorem dropBlanksEnd_eq_nil_iff {cs : List Char} : dropBlanksEnd cs = [] ↔ ∀ c ∈ cs, isBlank c := by
  simp [dropBlanksEnd]

theorem dropBlanks_append {cs : List Char} (h : ¬∀ c ∈ cs, isBlank c) (rest : List Char) :
    dropBlanks (cs ++ rest) = dropBlanks cs ++ rest := by
  have nonempty : (cs.dropWhile isBlank).isEmpty = false := by simpa using h
  rw [dropBlanks, List.dropWhile_append, nonempty]
  rfl

theorem dropBlanksEnd_append {rest : List Char} (h : ¬∀ c ∈ rest, isBlank c) (cs : List Char) :
    dropBlanksEnd (cs ++ rest) = cs ++ dropBlanksEnd rest := by
  have nonblank : ¬∀ c ∈ rest.reverse, isBlank c := by simpa using h
  have front := dropBlanks_append nonblank cs.reverse
  simp only [dropBlanks] at front
  simp [dropBlanksEnd, front]

theorem dropBlanksEnd_cons {c : Char} {cs : List Char} (h : ¬∀ x ∈ c :: cs, isBlank x) :
    dropBlanksEnd (c :: cs) = c :: dropBlanksEnd cs := by
  by_cases all : ∀ x ∈ cs, isBlank x
  · have hc : ¬isBlank c := fun hc => h (List.forall_mem_cons.mpr ⟨hc, all⟩)
    rw [dropBlanksEnd_eq_nil_iff.mpr all, dropBlanksEnd, List.reverse_cons,
      List.dropWhile_append_of_pos (by simpa using all), List.dropWhile_cons_of_neg hc]
    rfl
  · exact dropBlanksEnd_append all [c]

theorem dropBlanks_dropBlanksEnd (cs : List Char) :
    dropBlanks (dropBlanksEnd cs) = dropBlanksEnd (dropBlanks cs) := by
  induction cs with
  | nil => rfl
  | cons c cs ih =>
    by_cases all : ∀ x ∈ c :: cs, isBlank x
    · rw [dropBlanksEnd_eq_nil_iff.mpr all, dropBlanks_eq_nil_iff.mpr all]
      rfl
    · rw [dropBlanksEnd_cons all]
      by_cases hc : isBlank c
      · simpa [dropBlanks, hc] using ih
      · simp [dropBlanks, hc, dropBlanksEnd_cons all]

theorem trim_append {c : Char} (mark : ¬isBlank c) (first rest : List Char) :
    trim (first ++ c :: rest) = dropBlanks first ++ c :: dropBlanksEnd rest := by
  have kept : ¬∀ x ∈ c :: rest, isBlank x := fun all => mark (all c List.mem_cons_self)
  have front : dropBlanks (first ++ c :: rest) = dropBlanks first ++ c :: rest := by
    by_cases all : ∀ x ∈ first, isBlank x
    · rw [dropBlanks_eq_nil_iff.mpr all, dropBlanks, List.dropWhile_append_of_pos all,
        List.dropWhile_cons_of_neg mark, List.nil_append]
    · exact dropBlanks_append all _
  rw [trim, front, dropBlanksEnd_append kept, dropBlanksEnd_cons kept]

theorem trim_eq_nil_iff {cs : List Char} : trim cs = [] ↔ ∀ c ∈ cs, isBlank c := by
  have front : dropBlanks (dropBlanks cs) = dropBlanks cs := List.dropWhile_idempotent isBlank cs
  rw [trim, dropBlanksEnd_eq_nil_iff, ← dropBlanks_eq_nil_iff, front, dropBlanks_eq_nil_iff]

theorem dropBlanks_trim (cs : List Char) : dropBlanks (trim cs) = trim cs := by
  have front : dropBlanks (dropBlanks cs) = dropBlanks cs := List.dropWhile_idempotent isBlank cs
  rw [trim, dropBlanks_dropBlanksEnd, front]

theorem dropBlanksEnd_trim (cs : List Char) : dropBlanksEnd (trim cs) = trim cs :=
  List.rdropWhile_idempotent isBlank (dropBlanks cs)

theorem trim_trim (cs : List Char) : trim (trim cs) = trim cs := by
  rw [trim, dropBlanks_trim, dropBlanksEnd_trim]

theorem trim_isInfix (cs : List Char) : trim cs <:+: cs :=
  (List.rdropWhile_prefix isBlank (dropBlanks cs)).isInfix.trans
    (List.dropWhile_suffix isBlank).isInfix

theorem strip_strip (text : String) : strip (strip text) = strip text := by
  simp [strip, trim_trim]

/-! ### Blanks at the ends -/

def BlankAtStart (text : String) : Prop :=
  ∃ c ∈ text.toList.head?, isBlank c

def BlankAtEnd (text : String) : Prop :=
  ∃ c ∈ text.toList.getLast?, isBlank c

theorem dropBlanks_eq_self_iff {text : String} :
    dropBlanks text.toList = text.toList ↔ ¬BlankAtStart text := by
  rw [dropBlanks, List.dropWhile_eq_self_iff, BlankAtStart]
  cases text.toList <;> simp

theorem dropBlanksEnd_eq_self_iff {text : String} :
    dropBlanksEnd text.toList = text.toList ↔ ¬BlankAtEnd text := by
  rw [dropBlanksEnd, ← List.rdropWhile, List.rdropWhile_eq_self_iff, BlankAtEnd]
  generalize text.toList = cs
  cases cs using List.reverseRecOn <;> simp

theorem not_blankAtStart_strip (text : String) : ¬BlankAtStart (strip text) := by
  apply dropBlanks_eq_self_iff.mp
  rw [strip, String.toList_ofList, dropBlanks_trim]

theorem not_blankAtEnd_strip (text : String) : ¬BlankAtEnd (strip text) := by
  apply dropBlanksEnd_eq_self_iff.mp
  rw [strip, String.toList_ofList, dropBlanksEnd_trim]

/-- Beside a mark only the outer ends of two texts can have blanks to strip. -/
theorem strip_eq_self_iff {mark : Char} (nonblank : ¬isBlank mark) {first rest : String} :
    strip (first ++ String.singleton mark ++ rest) = first ++ String.singleton mark ++ rest ↔
      ¬BlankAtStart first ∧ ¬BlankAtEnd rest := by
  have text : (first ++ String.singleton mark ++ rest).toList = first.toList ++ mark :: rest.toList := by
    simp
  have front : (dropBlanks first.toList).length ≤ first.toList.length := length_dropBlanks_le _
  have back : (dropBlanksEnd rest.toList).length ≤ rest.toList.length :=
    (List.rdropWhile_prefix isBlank rest.toList).length_le
  rw [← dropBlanks_eq_self_iff, ← dropBlanksEnd_eq_self_iff, ← String.toList_inj, strip,
    String.toList_ofList, text, trim_append nonblank]
  constructor
  · intro same
    -- Dropping makes no side longer, so neither got shorter.
    have lengths := congrArg List.length same
    simp only [List.length_append, List.length_cons] at lengths
    obtain ⟨first, tail⟩ := List.append_inj same (by omega)
    exact ⟨first, (List.cons.inj tail).2⟩
  · rintro ⟨front, back⟩
    rw [front, back]

end DataBind.Text
