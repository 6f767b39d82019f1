import DataBind.Proofs.Yaml.QuotedScalars

/-!
# Texts in quotes

The writers put any text in double quotes, and in single quotes those that need no escape. Both are
read back. Texts that JSON leaves as they are may have separators of lines, next to which no space is
kept.
-/

namespace DataBind.Yaml

theorem exists_span (p : Char → Bool) (cs : List Char) :
    ∃ first rest, cs = first ++ rest ∧ (∀ c ∈ first, p c = true) ∧ ∀ c ∈ rest.head?, p c = false := by
  induction cs with
  | nil => exact ⟨[], [], rfl, by simp, by simp⟩
  | cons c cs ih =>
    cases inside : p c with
    | false => exact ⟨[], c :: cs, rfl, by simp, by simpa using inside⟩
    | true =>
      obtain ⟨first, rest, same, all, stop⟩ := ih
      exact ⟨c :: first, rest, congrArg (c :: ·) same, List.forall_mem_cons.mpr ⟨inside, all⟩, stop⟩

/-- Texts as runs of one class of characters between runs of the others. -/
theorem runs_induction {motive : List Char → Prop} (p : Char → Bool)
    (last : ∀ word, (∀ c ∈ word, p c = false) → motive word)
    (more : ∀ word c gap rest, (∀ c ∈ word, p c = false) → (∀ d ∈ c :: gap, p d = true) →
      (∀ c ∈ rest.head?, p c = false) → motive rest → motive (word ++ (c :: gap) ++ rest))
    (cs : List Char) : motive cs := by
  obtain ⟨word, behind, same, outside, stop⟩ := exists_span (!p ·) cs
  simp only [Bool.not_eq_true'] at outside
  cases behind with
  | nil =>
    rw [same, List.append_nil]
    exact last word outside
  | cons c behind =>
    obtain ⟨gap, rest, same', inside, stop'⟩ := exists_span p behind
    have first : p c = true := by simpa using stop c rfl
    have shorter : rest.length < cs.length := by simp [same, same']; omega
    rw [same, same', ← List.cons_append, ← List.append_assoc]
    exact more word c gap rest outside (List.forall_mem_cons.mpr ⟨first, inside⟩) stop'
      (runs_induction p last more rest)
termination_by cs.length

theorem hasPair_of_append {p q : Char → Bool} {first rest : List Char}
    (h : hasPair p q (first ++ rest) = false) : hasPair p q first = false ∧ hasPair p q rest = false := by
  induction first with
  | nil => exact ⟨rfl, h⟩
  | cons c first ih =>
    cases first with
    | nil =>
      cases rest with
      | nil => exact ⟨rfl, rfl⟩
      | cons d rest => exact ⟨rfl, (Bool.or_eq_false_iff.mp h).2⟩
    | cons d first =>
      obtain ⟨pair, later⟩ := Bool.or_eq_false_iff.mp h
      obtain ⟨inFirst, inRest⟩ := ih later
      exact ⟨Bool.or_eq_false_iff.mpr ⟨pair, inFirst⟩, inRest⟩

/-- A gap in which no space is next to a line break is all spaces or all separators. -/
theorem gap_cases {c : Char} {gap : List Char} (class' : ∀ d ∈ c :: gap, d = ' ' ∨ isSeparator d = true)
    (before : hasPair isSpace isBreak (c :: gap) = false)
    (after : hasPair isBreak isSpace (c :: gap) = false) :
    c :: gap = spaces (gap.length + 1) ∨ ∀ d ∈ c :: gap, isSeparator d = true := by
  induction gap generalizing c with
  | nil =>
    rcases class' c List.mem_cons_self with rfl | separator
    · exact .inl rfl
    · exact .inr (by simpa using separator)
  | cons d gap ih =>
    obtain ⟨first, later⟩ := List.forall_mem_cons.mp class'
    obtain ⟨pairBefore, before⟩ := Bool.or_eq_false_iff.mp before
    obtain ⟨pairAfter, after⟩ := Bool.or_eq_false_iff.mp after
    rcases ih later before after with blank | separators
    · have space : d = ' ' := (List.cons.inj blank).1
      rcases first with rfl | separator
      · exact .inl (congrArg (' ' :: ·) blank)
      · simp [space, isSpace, isBreak_of_isSeparator separator] at pairAfter
    · have broken := isBreak_of_isSeparator (separators d List.mem_cons_self)
      rcases first with rfl | separator
      · simp [isSpace, broken] at pairBefore
      · exact .inr (List.forall_mem_cons.mpr ⟨separator, separators⟩)

/-! ### Double quotes -/

theorem doubleWord?_escaped {escape : Char → List Char} {word tail : List Char}
    (unescapes : ∀ c ∈ word, Unescapes (escape c) c) (ends : EndsWord false tail) :
    doubleWord? (word.flatMap escape ++ tail) = some (word, tail, false) := by
  induction word with
  | nil =>
    obtain ⟨c, rest, rfl, stop⟩ := ends
    have plain : c ≠ '\\' := by
      rintro rfl
      revert stop
      simp [quote]
      decide
    have stop' : (isGap c || c == '"') = true := by
      rcases stop with gap | ⟨rfl, -⟩
      · simp [gap]
      · simp [quote]
    rw [List.flatMap_nil, List.nil_append, doubleWord?.eq_def]
    simp [plain, stop']
  | cons c word ih =>
    obtain ⟨first, later⟩ := List.forall_mem_cons.mp unescapes
    rw [List.flatMap_cons, List.append_assoc, first, ih later]
    rfl

theorem readsWord_escaped {escape : Char → List Char} {word : List Char}
    (escaped : ∀ c ∈ word, Unescapes (escape c) c ∧ IsWordText (escape c)) :
    ReadsWord false (word.flatMap escape) word := by
  intro cursor tail rest ends
  have unbroken : ∀ d ∈ word.flatMap escape, isBreak d = false := by
    intro d member
    obtain ⟨c, inside, member⟩ := List.mem_flatMap.mp member
    exact isBreak_of_not_isGap ((escaped c inside).2 d member).1
  rw [quotedWord?, rest, doubleWord?_escaped (fun c member => (escaped c member).1) ends]
  simp only [Bool.false_eq_true, if_false]
  rw [Cursor.goTo_eq_past rest unbroken]

theorem Unescapes.ne_nil {written : List Char} {c : Char} (h : Unescapes written c) : written ≠ [] := by
  rintro rfl
  cases h []

/-- A line behind a line break begins like a marker. -/
def hasMarkerLine : List Char → Bool
  | [] => false
  | c :: rest => (isBreak c && beginsWithMarker rest) || hasMarkerLine rest

theorem hasMarkerLine_of_append {first rest : List Char} (h : hasMarkerLine (first ++ rest) = false) :
    hasMarkerLine rest = false := by
  induction first with
  | nil => exact h
  | cons c first ih => exact ih (Bool.or_eq_false_iff.mp h).2

theorem flatMap_raw {escape : Char → List Char} {gap : List Char} (raw : ∀ c ∈ gap, escape c = [c]) :
    gap.flatMap escape = gap := by
  induction gap with
  | nil => rfl
  | cons c gap ih =>
    obtain ⟨first, later⟩ := List.forall_mem_cons.mp raw
    rw [List.flatMap_cons, first, ih later]
    rfl

/-- Escapes, and gaps that stand for themselves: the spaces and separators of one class. -/
theorem quotedText_escaped {escape : Char → List Char} (isRaw : Char → Bool) {text : List Char}
    (words : ∀ c ∈ text, isRaw c = false → Unescapes (escape c) c ∧ IsWordText (escape c))
    (gaps : ∀ c ∈ text, isRaw c = true → escape c = [c] ∧ (c = ' ' ∨ isSeparator c = true))
    (before : hasPair isSpace isBreak (text.flatMap escape) = false)
    (after : hasPair isBreak isSpace (text.flatMap escape) = false)
    (unmarked : hasMarkerLine (text.flatMap escape) = false) :
    QuotedText false (text.flatMap escape) text := by
  induction text using runs_induction isRaw with
  | last word outside =>
    exact .word (readsWord_escaped fun c member => words c member (outside c member))
  | more word c gap rest outside inside stop ih =>
    simp only [List.forall_mem_append] at words gaps
    have raw : (c :: gap).flatMap escape = c :: gap :=
      flatMap_raw fun d member => (gaps.1.2 d member (inside d member)).1
    rw [List.flatMap_append, List.flatMap_append, raw] at before after unmarked ⊢
    have first : ReadsWord false (word.flatMap escape) word :=
      readsWord_escaped fun d member => words.1.1 d member (outside d member)
    have later := ih words.2 gaps.2 (hasPair_of_append before).2 (hasPair_of_append after).2
      (hasMarkerLine_of_append unmarked)
    have solid : ∀ d ∈ (rest.flatMap escape).head?, isGap d = false := by
      cases rest with
      | nil => simp
      | cons r rest =>
        obtain ⟨unescapes, wordText⟩ := words.2 r List.mem_cons_self (stop r rfl)
        obtain ⟨d, ds, same⟩ := List.exists_cons_of_ne_nil unescapes.ne_nil
        simpa [same] using (wordText d (same ▸ List.mem_cons_self)).1
    rcases gap_cases (fun d member => (gaps.1.2 d member (inside d member)).2)
      (hasPair_of_append (hasPair_of_append before).1).2 (hasPair_of_append (hasPair_of_append after).1).2
      with blank | separators
    · rw [blank]
      have space : (spaces (gap.length + 1)).getLast? = some ' ' := by
        rw [spaces, List.replicate_succ', List.getLast?_concat]
      exact .more first (.blanks gap.length) later solid (.inl space)
    · have kept : KeptGap (c :: gap) (c :: gap) := by simpa [spaces] using KeptGap.lines separators 0
      obtain ⟨init, d, same⟩ := (List.eq_nil_or_concat (c :: gap)).resolve_left (by simp)
      have broken : isBreak d = true := isBreak_of_isSeparator (separators d (by simp [same]))
      rw [same, List.concat_eq_append, List.append_assoc, List.append_assoc] at unmarked
      have free := hasMarkerLine_of_append (hasMarkerLine_of_append unmarked)
      rw [List.singleton_append, hasMarkerLine, broken, Bool.true_and, Bool.or_eq_false_iff] at free
      exact .more first kept later solid (.inr free.1)

/-! Without line breaks there is nothing to be lost. -/

theorem hasPair_isBreak {cs : List Char} (unbroken : ∀ c ∈ cs, isBreak c = false) :
    hasPair isSpace isBreak cs = false ∧ hasPair isBreak isSpace cs = false := by
  induction cs with
  | nil => exact ⟨rfl, rfl⟩
  | cons c cs ih =>
    obtain ⟨first, later⟩ := List.forall_mem_cons.mp unbroken
    cases cs with
    | nil => exact ⟨rfl, rfl⟩
    | cons d cs =>
      obtain ⟨before, after⟩ := ih later
      simp [hasPair, before, after, first, later d List.mem_cons_self]

theorem hasMarkerLine_unbroken {cs : List Char} (unbroken : ∀ c ∈ cs, isBreak c = false) :
    hasMarkerLine cs = false := by
  induction cs with
  | nil => rfl
  | cons c cs ih =>
    obtain ⟨first, later⟩ := List.forall_mem_cons.mp unbroken
    rw [hasMarkerLine, first, Bool.false_and, Bool.false_or, ih later]

theorem doubleQuotedChar_space : doubleQuotedChar ' ' = [' '] := by decide

theorem doubleQuoted_readable {text : List Char} {d : Char} (member : d ∈ text.flatMap doubleQuotedChar) :
    isBreak d = false ∧ isReadable d = true := by
  obtain ⟨c, -, member⟩ := List.mem_flatMap.mp member
  by_cases space : c = ' '
  · rw [space, doubleQuotedChar_space, List.mem_singleton] at member
    subst member
    decide
  · obtain ⟨word, readable⟩ := (doubleQuotedChar_spec space).2 d member
    exact ⟨isBreak_of_not_isGap word, readable⟩

theorem quotedText_double (text : List Char) :
    QuotedText false (text.flatMap doubleQuotedChar) text := by
  have unbroken : ∀ d ∈ text.flatMap doubleQuotedChar, isBreak d = false :=
    fun d member => (doubleQuoted_readable member).1
  obtain ⟨before, after⟩ := hasPair_isBreak unbroken
  refine quotedText_escaped isSpace ?_ ?_ before after (hasMarkerLine_unbroken unbroken)
  · intro c _ word
    exact doubleQuotedChar_spec (by simpa [isSpace] using word)
  · intro c _ space
    obtain rfl : c = ' ' := by simpa [isSpace] using space
    exact ⟨doubleQuotedChar_space, .inl rfl⟩

/-! ### Single quotes -/

def singleQuotedChar (c : Char) : List Char :=
  if c == '\'' then ['\'', '\''] else [c]

theorem singleWord_quoted {word tail : List Char} (outside : ∀ c ∈ word, isGap c = false)
    (ends : EndsWord true tail) : singleWord (word.flatMap singleQuotedChar ++ tail) = (word, tail) := by
  induction word with
  | nil =>
    obtain ⟨c, rest, rfl, gap | ⟨rfl, single⟩⟩ := ends
    · have plain : c ≠ '\'' := by
        rintro rfl
        revert gap
        decide
      rw [List.flatMap_nil, List.nil_append, singleWord.eq_def]
      simp [plain, gap]
    · cases rest with
      | nil => rfl
      | cons d rest =>
        have other : d ≠ '\'' := by simpa using single
        rw [List.flatMap_nil, List.nil_append, singleWord.eq_def]
        simp [quote, other]
  | cons c word ih =>
    obtain ⟨first, later⟩ := List.forall_mem_cons.mp outside
    rw [List.flatMap_cons, List.append_assoc, singleQuotedChar]
    split
    · rename_i same
      rw [beq_iff_eq.mp same, List.cons_append, List.singleton_append, singleWord, ih later]
    · rename_i other
      have plain : c ≠ '\'' := by simpa using other
      rw [List.singleton_append, singleWord.eq_def]
      simp [plain, first, ih later]

theorem isBreak_of_mem_singleQuotedChar {c d : Char} (plain : isGap c = false)
    (member : d ∈ singleQuotedChar c) : isGap d = false := by
  unfold singleQuotedChar at member
  split at member
  · have same : d = '\'' := by simpa using member
    rw [same]
    decide
  · rw [List.mem_singleton.mp member, plain]

theorem readsWord_single {word : List Char} (outside : ∀ c ∈ word, isGap c = false) :
    ReadsWord true (word.flatMap singleQuotedChar) word := by
  intro cursor tail rest ends
  have unbroken : ∀ d ∈ word.flatMap singleQuotedChar, isBreak d = false := by
    intro d member
    obtain ⟨c, inside, member⟩ := List.mem_flatMap.mp member
    exact isBreak_of_not_isGap (isBreak_of_mem_singleQuotedChar (outside c inside) member)
  rw [quotedWord?, if_pos rfl, rest, singleWord_quoted outside ends]
  dsimp only
  rw [Cursor.goTo_eq_past rest unbroken]

theorem singleQuotedRest_append (indent : Nat) {first : List Char}
    (unbroken : ∀ c ∈ first, isBreak c = false) (rest : List Char) :
    singleQuotedRest indent false (first ++ rest) =
      first.flatMap singleQuotedChar ++ singleQuotedRest indent false rest := by
  induction first with
  | nil => rfl
  | cons c first ih =>
    obtain ⟨head, later⟩ := List.forall_mem_cons.mp unbroken
    rw [List.cons_append, singleQuotedRest, head, List.flatMap_cons, singleQuotedChar, ih later]
    simp [spaces]

theorem singleQuotedRest_breaks (indent : Nat) (lineStart : Bool) {c : Char} {breaks : List Char}
    (broken : ∀ d ∈ c :: breaks, isBreak d = true) (rest : List Char) :
    singleQuotedRest indent lineStart (c :: breaks ++ rest) =
      c :: breaks ++ singleQuotedRest indent true rest := by
  induction breaks generalizing c lineStart with
  | nil =>
    rw [List.singleton_append, singleQuotedRest, if_pos (broken c List.mem_cons_self)]
    rfl
  | cons d breaks ih =>
    obtain ⟨first, later⟩ := List.forall_mem_cons.mp broken
    rw [List.cons_append, singleQuotedRest, if_pos first, ih true later]
    rfl

theorem singleQuotedRest_lineStart (indent : Nat) {rest : List Char}
    (unbroken : ∀ c ∈ rest.head?, isBreak c = false) :
    singleQuotedRest indent true rest = spaces indent ++ singleQuotedRest indent false rest := by
  cases rest with
  | nil => rw [singleQuotedRest, singleQuotedRest]; simp [spaces]
  | cons c rest =>
    have first := unbroken c rfl
    rw [singleQuotedRest, singleQuotedRest, first]
    simp [spaces]

theorem head?_singleQuotedRest (indent : Nat) {rest : List Char}
    (solid : ∀ c ∈ rest.head?, isGap c = false) :
    ∀ d ∈ (singleQuotedRest indent false rest).head?, isGap d = false := by
  cases rest with
  | nil => simp [singleQuotedRest, spaces]
  | cons c rest =>
    have first := solid c rfl
    rw [singleQuotedRest, isBreak_of_not_isGap first]
    by_cases single : c = '\''
    · simp [single, spaces]
      decide
    · simp [single, spaces, first]

theorem space_or_separator {c : Char} (printable : isPrintable c = true) (gap : isGap c = true)
    (sameLine : c ≠ '\n') : c = ' ' ∨ isSeparator c = true := by
  rcases eq_space_or_isBreak printable gap with space | broken
  · exact .inl space
  · simp only [isBreak, Bool.or_eq_true, beq_iff_eq] at broken
    rcases broken with (((rfl | rfl) | rfl) | rfl) | rfl
    · exact absurd rfl sameLine
    · exact absurd printable (by decide)
    · exact absurd printable (by decide)
    · exact .inr (by decide)
    · exact .inr (by decide)

theorem isPrintable_of_not_hasUnprintable {cs : List Char} (h : hasUnprintable cs = false) :
    ∀ c ∈ cs, isPrintable c = true := by
  simpa [hasUnprintable] using h

/-- Lines of a text in single quotes are indented, so they never begin like a marker. -/
theorem quotedText_single {indent : Nat} (indented : 0 < indent) {text : List Char}
    (oneLine : ∀ c ∈ text, c ≠ '\n') (printable : ∀ c ∈ text, isPrintable c = true)
    (before : hasPair isSpace isBreak text = false) (after : hasPair isBreak isSpace text = false) :
    QuotedText true (singleQuotedRest indent false text) text := by
  induction text using runs_induction isGap with
  | last word outside =>
    have unbroken : ∀ c ∈ word, isBreak c = false := fun c member => isBreak_of_not_isGap (outside c member)
    have written := singleQuotedRest_append indent unbroken []
    rw [List.append_nil, singleQuotedRest, if_neg (by decide), spaces, List.replicate_zero,
      List.append_nil] at written
    rw [written]
    exact .word (readsWord_single outside)
  | more word c gap rest outside inside stop ih =>
    have unbroken : ∀ c ∈ word, isBreak c = false := fun c member => isBreak_of_not_isGap (outside c member)
    simp only [List.forall_mem_append] at oneLine printable
    have later := ih oneLine.2 printable.2 (hasPair_of_append before).2 (hasPair_of_append after).2
    have solid := head?_singleQuotedRest indent stop
    have classes : ∀ d ∈ c :: gap, d = ' ' ∨ isSeparator d = true := fun d member =>
      space_or_separator (printable.1.2 d member) (inside d member) (oneLine.1.2 d member)
    rw [List.append_assoc, singleQuotedRest_append indent unbroken, ← List.append_assoc word]
    rcases gap_cases classes (hasPair_of_append (hasPair_of_append before).1).2
      (hasPair_of_append (hasPair_of_append after).1).2 with blank | separators
    · have space : (spaces (gap.length + 1)).getLast? = some ' ' := by
        rw [spaces, List.replicate_succ', List.getLast?_concat]
      have written : singleQuotedRest indent false (c :: gap ++ rest) =
          c :: gap ++ singleQuotedRest indent false rest := by
        rw [blank, singleQuotedRest_append indent fun _ => isBreak_of_mem_spaces,
          flatMap_raw fun d member => by rw [mem_spaces member]; rfl]
      rw [written, ← List.append_assoc, blank]
      exact .more (readsWord_single outside) (.blanks gap.length) later solid (.inl space)
    · have written : singleQuotedRest indent false (c :: gap ++ rest) =
          c :: gap ++ spaces indent ++ singleQuotedRest indent false rest := by
        rw [singleQuotedRest_breaks indent false fun d member => isBreak_of_isSeparator (separators d member),
          singleQuotedRest_lineStart indent fun d member => isBreak_of_not_isGap (stop d member),
          List.append_assoc]
      obtain ⟨n, rfl⟩ := Nat.exists_eq_add_of_lt indented
      have space : (c :: gap ++ spaces (0 + n + 1)).getLast? = some ' ' := by
        rw [spaces, List.replicate_succ', ← List.append_assoc, List.getLast?_concat]
      rw [written, ← List.append_assoc]
      exact .more (readsWord_single outside) (.lines separators _) later solid (.inl space)

end DataBind.Yaml
