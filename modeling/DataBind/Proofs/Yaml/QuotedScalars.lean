import DataBind.Proofs.Yaml.Escapes

/-!
# Quoted scalars read back

A quoted text consists of words, with gaps between them that are read back as they were meant: spaces, or
separators of lines with any indentation behind them. `QuotedText` relates what is written to what is read.
-/

namespace DataBind.Yaml

/-- The line breaks that are kept as they are when folded. -/
def isSeparator (c : Char) : Bool :=
  c == '\u2028' || c == '\u2029'

theorem isBreak_of_isSeparator {c : Char} (h : isSeparator c = true) : isBreak c = true := by
  rw [isBreak, Bool.or_assoc]
  exact Bool.or_eq_true_iff.mpr (.inr h)

theorem isPrintable_of_isSeparator {c : Char} (h : isSeparator c = true) : isPrintable c = true := by
  simp only [isSeparator, Bool.or_eq_true, beq_iff_eq] at h
  rcases h with rfl | rfl <;> decide

theorem mem_spaces {c : Char} {n : Nat} (h : c ∈ spaces n) : c = ' ' :=
  List.eq_of_mem_replicate h

theorem isBreak_of_mem_spaces {c : Char} {n : Nat} (h : c ∈ spaces n) : isBreak c = false := by
  rw [mem_spaces h]
  decide

theorem spaces_succ (n : Nat) : spaces (n + 1) = ' ' :: spaces n := rfl

theorem Cursor.past_spaces_succ (cursor : Cursor) (n : Nat) :
    cursor.past (spaces (n + 1)) = (cursor.advance 1).past (spaces n) :=
  past_unbroken (by decide) (spaces n)

theorem Cursor.column_past_spaces (cursor : Cursor) (n : Nat) :
    (cursor.past (spaces n)).column = cursor.column + n := by
  rw [column_past fun _ => isBreak_of_mem_spaces, spaces, List.length_replicate]

theorem Cursor.column_past_indentation {c : Char} (broken : isBreak c = true) (cursor : Cursor)
    (before : List Char) (n : Nat) : (cursor.past (before ++ c :: spaces n)).column = n := by
  rw [past_append, column_past_break broken fun _ => isBreak_of_mem_spaces, spaces, List.length_replicate]

/-! ### Gaps -/

section Gaps

variable {limit fuel n : Nat} {gap : Gap} {cursor : Cursor} {breaks tail : List Char}

theorem Gap.read_stop (rest : cursor.rest = tail) (stop : ∀ c ∈ tail.head?, isGap c = false) (fuel : Nat) :
    gap.read limit fuel cursor = some (gap, cursor) := by
  cases fuel with
  | zero => rfl
  | succ fuel =>
    rw [read]
    cases tail with
    | nil => rw [rest]
    | cons c tail =>
      have solid := stop c rfl
      rw [rest]
      simp [isBlank_of_not_isGap solid, isBreak_of_not_isGap solid]

theorem Gap.read_spaces (unbroken : gap.broken = false) (rest : cursor.rest = spaces n ++ tail)
    (stop : ∀ c ∈ tail.head?, isGap c = false) (enough : n ≤ fuel) :
    gap.read limit fuel cursor =
      some ({ gap with blanks := gap.blanks ++ spaces n }, cursor.past (spaces n)) := by
  induction n generalizing gap cursor fuel with
  | zero =>
    rw [read_stop rest stop]
    simp [spaces, Cursor.past]
  | succ n ih =>
    obtain ⟨fuel, rfl⟩ := Nat.exists_eq_add_of_le' (Nat.lt_of_lt_of_le (Nat.succ_pos n) enough)
    rw [read, rest, Cursor.past_spaces_succ]
    have blank : isBlank ' ' = true := by decide
    simp only [spaces_succ, List.cons_append, blank, if_true, unbroken, Bool.not_false]
    rw [ih rfl (congrArg (List.drop 1) rest) (Nat.le_of_succ_le_succ enough)]
    simp

theorem Gap.read_indentation (broken : gap.broken = true) (rest : cursor.rest = spaces n ++ tail)
    (stop : ∀ c ∈ tail.head?, isGap c = false) (enough : n ≤ fuel) :
    gap.read limit fuel cursor = some (gap, cursor.past (spaces n)) := by
  induction n generalizing cursor fuel with
  | zero => exact read_stop rest stop fuel
  | succ n ih =>
    obtain ⟨fuel, rfl⟩ := Nat.exists_eq_add_of_le' (Nat.lt_of_lt_of_le (Nat.succ_pos n) enough)
    rw [read, rest, Cursor.past_spaces_succ]
    have blank : isBlank ' ' = true := by decide
    have noTab : (' ' == '\t') = false := by decide
    simp only [spaces_succ, List.cons_append, blank, if_true, broken, Bool.not_true, noTab,
      Bool.false_and, Bool.false_eq_true, if_false]
    exact ih (congrArg (List.drop 1) rest) (Nat.le_of_succ_le_succ enough)

theorem Gap.read_breaks (rest : cursor.rest = breaks ++ tail)
    (kept : ∀ c ∈ breaks, isBreak c = true ∧ isPrintable c = true) (fuel : Nat) :
    gap.read limit (breaks.length + fuel) cursor =
      (breaks.foldl (fun gap c => gap.addBreak [c]) gap).read limit fuel (cursor.past breaks) := by
  induction breaks generalizing gap cursor with
  | nil => rw [List.length_nil, Nat.zero_add]; rfl
  | cons c breaks ih =>
    obtain ⟨⟨broken, printable⟩, later⟩ := List.forall_mem_cons.mp kept
    have solid : isBlank c = false := by
      refine Bool.eq_false_iff.mpr fun blank => ?_
      simp only [isBlank, Bool.or_eq_true, beq_iff_eq] at blank
      rcases blank with rfl | rfl
      · exact absurd broken (by decide)
      · exact absurd broken (by decide)
    rw [List.length_cons, Nat.add_right_comm, read, rest, List.cons_append]
    simp only [solid, Bool.false_eq_true, if_false, broken, if_true]
    rw [Cursor.takeBreak_eq_past rest broken printable]
    have behind : (cursor.past [c]).rest = breaks ++ tail := Cursor.rest_past rest
    rw [Cursor.past_cons cursor c breaks]
    exact ih behind later

theorem Gap.foldl_addBreak (first : List Char) (more : List Char) (breaks : List Char) :
    breaks.foldl (fun gap c => Gap.addBreak gap [c]) (Gap.mk [] true first more) =
      Gap.mk [] true first (more ++ breaks) := by
  induction breaks generalizing more with
  | nil => rw [List.append_nil]; rfl
  | cons c breaks ih =>
    rw [List.foldl_cons, addBreak, if_pos rfl, ih, List.append_assoc]
    rfl

end Gaps

/-- Gaps that contribute a text to a scalar as it is, and the text. -/
inductive KeptGap : List Char → List Char → Prop
  | blanks (n : Nat) : KeptGap (spaces (n + 1)) (spaces (n + 1))
  | lines {c : Char} {more : List Char} (separators : ∀ d ∈ c :: more, isSeparator d = true) (n : Nat) :
      KeptGap (c :: more ++ spaces n) (c :: more)

section KeptGaps

variable {fuel : Nat} {cursor : Cursor} {written text tail : List Char}

theorem KeptGap.read (limit : Nat) (kept : KeptGap written text) (rest : cursor.rest = written ++ tail)
    (stop : ∀ c ∈ tail.head?, isGap c = false) (enough : written.length ≤ fuel) :
    ∃ gap, Gap.none.read limit fuel cursor = some (gap, cursor.past written) ∧ gap.text = text := by
  cases kept with
  | blanks n =>
    rw [spaces, List.length_replicate] at enough
    exact ⟨_, Gap.read_spaces rfl rest stop enough, rfl⟩
  | @lines c more separators n =>
    have breaks : ∀ d ∈ c :: more, isBreak d = true ∧ isPrintable d = true := fun d member =>
      ⟨isBreak_of_isSeparator (separators d member), isPrintable_of_isSeparator (separators d member)⟩
    rw [List.length_append, spaces, List.length_replicate] at enough
    obtain ⟨left, rfl⟩ := Nat.exists_eq_add_of_le (Nat.le_of_add_right_le enough)
    rw [List.append_assoc] at rest
    refine ⟨⟨[], true, [c], more⟩, ?_, ?_⟩
    · have behind := Cursor.rest_past rest
      rw [Gap.read_breaks rest breaks, Cursor.past_append]
      have folded : (c :: more).foldl (fun gap c => Gap.addBreak gap [c]) Gap.none =
          ⟨[], true, [c], more⟩ := Gap.foldl_addBreak [c] [] more
      rw [folded]
      exact Gap.read_indentation rfl behind stop (by omega)
    · have first : c ≠ '\n' := by
        rintro rfl
        exact absurd (separators '\n' List.mem_cons_self) (by decide)
      simp [Gap.text, first]

theorem KeptGap.head (kept : KeptGap written text) : ∃ c rest, written = c :: rest ∧ isGap c = true := by
  cases kept with
  | blanks n => exact ⟨' ', spaces n, rfl, by decide⟩
  | @lines c more separators n =>
    exact ⟨c, more ++ spaces n, rfl, isGap_of_isBreak (isBreak_of_isSeparator (separators c List.mem_cons_self))⟩

end KeptGaps

/-! ### Words and gaps -/

def quote (single : Bool) : Char :=
  if single then '\'' else '"'

/-- A gap or the closing quote; two single quotes are none. -/
def EndsWord (single : Bool) (tail : List Char) : Prop :=
  ∃ c rest, tail = c :: rest ∧ (isGap c = true ∨ (c = quote single ∧ rest.head? ≠ some '\''))

/-- The characters are read as this word. -/
def ReadsWord (single : Bool) (written word : List Char) : Prop :=
  ∀ (cursor : Cursor) (tail : List Char), cursor.rest = written ++ tail → EndsWord single tail →
    quotedWord? single cursor = some (word, Gap.none, cursor.past written)

/-- A line that begins like this separates documents. -/
def beginsWithMarker : List Char → Bool
  | a :: b :: c :: d :: _ => (a == '-' || a == '.') && a == b && b == c && isGap d
  | _ => false

/-- What is written between quotes and what it is read as. -/
inductive QuotedText (single : Bool) : List Char → List Char → Prop
  | word {written word : List Char} (reads : ReadsWord single written word) :
      QuotedText single written word
  | more {written word gap gapText rest text : List Char} (reads : ReadsWord single written word)
      (kept : KeptGap gap gapText) (later : QuotedText single rest text)
      (solid : ∀ c ∈ rest.head?, isGap c = false)
      (unmarked : gap.getLast? = some ' ' ∨ beginsWithMarker rest = false) :
      QuotedText single (written ++ gap ++ rest) (word ++ gapText ++ text)

section Quoted

variable {single : Bool} {fuel : Nat} {cursor : Cursor} {written text tail : List Char}

theorem isGap_quote (single : Bool) : isGap (quote single) = false := by
  cases single <;> decide

theorem not_seesDocumentMarker (rest : cursor.rest = written ++ quote single :: tail)
    (unmarked : cursor.column ≠ 0 ∨ beginsWithMarker written = false) :
    cursor.seesDocumentMarker = false := by
  rcases unmarked with inside | unmarked
  · simp [Cursor.seesDocumentMarker, Cursor.seesMarker, inside]
  · have noDash : quote single ≠ '-' := by cases single <;> decide
    have noDot : quote single ≠ '.' := by cases single <;> decide
    have solid := isGap_quote single
    -- The marker and the gap behind it would have to come before the quote.
    match written with
    | [] | [a] | [a, b] | [a, b, c] =>
      simp [Cursor.seesDocumentMarker, Cursor.seesMarker, Cursor.gapAt, rest, noDash, noDot, solid]
    | a :: b :: c :: d :: written =>
      have bare : ∀ e, e = '-' ∨ e = '.' → a = e → b = e → c = e → isGap d = false := by
        rintro e (rfl | rfl) rfl rfl rfl <;> simpa [beginsWithMarker] using unmarked
      simp only [Cursor.seesDocumentMarker, Cursor.seesMarker, Cursor.gapAt, rest]
      simpa using ⟨fun _ => bare '-' (.inl rfl), fun _ => bare '.' (.inr rfl)⟩

theorem column_past_ne_zero {written : List Char} (space : written.getLast? = some ' ') :
    (cursor.past written).column ≠ 0 := by
  obtain ⟨first, rfl⟩ := List.getLast?_eq_some_iff.mp space
  have one : (cursor.past (first ++ [' '])).column = (cursor.past first).column + 1 := by
    rw [Cursor.past_append, Cursor.column_past (List.forall_mem_singleton.mpr rfl)]
    rfl
  omega

/-- Quoted texts are read from behind their opening quote on. -/
theorem quotedRest?_eq (quoted : QuotedText single written text)
    (rest : cursor.rest = written ++ quote single :: tail) (closed : tail.head? ≠ some '\'')
    (unmarked : cursor.column ≠ 0 ∨ beginsWithMarker written = false) (enough : written.length < fuel) :
    quotedRest? single fuel cursor = some (text, cursor.past (written ++ [quote single])) := by
  induction quoted generalizing cursor fuel with
  | @word written word reads =>
    obtain ⟨fuel, rfl⟩ := Nat.exists_eq_add_of_lt enough
    have content := reads cursor _ rest ⟨_, tail, rfl, .inr ⟨rfl, closed⟩⟩
    have behind := Cursor.rest_past rest
    have atQuote : (cursor.past written).seesChar (if single then '\'' else '"') = true := by
      simp [Cursor.seesChar, behind, quote]
    have opened : cursor.atEnd = false := by simp [Cursor.atEnd, rest]
    rw [quotedRest?, not_seesDocumentMarker rest unmarked, opened, content]
    simp only [Bool.or_self, Bool.false_eq_true, if_false, atQuote, if_true]
    rw [Cursor.past_append, Cursor.past_unbroken (isBreak_of_not_isGap (isGap_quote single))]
    rfl
  | @more written word gap gapText later text reads kept _ solid unmarkedLater ih =>
    obtain ⟨fuel, rfl⟩ := Nat.exists_eq_add_of_lt enough
    obtain ⟨g, gaps, same, blank⟩ := kept.head
    have rest' : cursor.rest = written ++ (gap ++ (later ++ quote single :: tail)) := by
      simpa only [List.append_assoc] using rest
    have content := reads cursor _ rest' ⟨g, _, by rw [same]; rfl, .inl blank⟩
    have behind := Cursor.rest_past rest'
    have solidLater : ∀ c ∈ (later ++ quote single :: tail).head?, isGap c = false := by
      cases later with
      | nil => simpa using isGap_quote single
      | cons c later => exact solid
    have opened : cursor.atEnd = false := by simp [Cursor.atEnd, rest', same]
    have unclosed : (cursor.past written).seesChar (if single then '\'' else '"') = false := by
      have other : g ≠ quote single := by
        rintro rfl
        rw [isGap_quote] at blank
        cases blank
      simpa [Cursor.seesChar, behind, same, quote] using other
    have fits : gap.length ≤ (cursor.past written).rest.length + 1 := by
      rw [behind, List.length_append]
      omega
    obtain ⟨read, gapRead, gapMeans⟩ := kept.read 0 behind solidLater fits
    have atLater := Cursor.rest_past behind
    have unmarkedThere : ((cursor.past written).past gap).column ≠ 0 ∨ beginsWithMarker later = false :=
      unmarkedLater.imp_left column_past_ne_zero
    have shorter : later.length < (written ++ gap ++ later).length + fuel := by
      simp [same]
      omega
    rw [quotedRest?, not_seesDocumentMarker rest unmarked, opened, content]
    simp only [Bool.or_self, Bool.false_eq_true, if_false, unclosed, gapRead, gapMeans,
      ih atLater unmarkedThere shorter, Option.map_some]
    simp only [Cursor.past_append, List.append_assoc]

theorem quotedScalar?_eq (quoted : QuotedText single written text)
    (rest : cursor.rest = quote single :: written ++ quote single :: tail)
    (closed : tail.head? ≠ some '\'') :
    quotedScalar? single cursor =
      some (text, cursor.past (quote single :: written ++ [quote single])) := by
  have behind : (cursor.advance 1).rest = written ++ quote single :: tail := congrArg (List.drop 1) rest
  have enough : written.length < cursor.rest.length + 1 := by
    simp [rest]
    omega
  rw [quotedScalar?, quotedRest?_eq quoted behind closed (.inl (Nat.succ_ne_zero _)) enough,
    List.cons_append, Cursor.past_unbroken (isBreak_of_not_isGap (isGap_quote single))]

end Quoted

end DataBind.Yaml
