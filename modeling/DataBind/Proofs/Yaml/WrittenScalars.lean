import DataBind.Proofs.Yaml.BlockSteps

/-!
# Texts as scalars

Every text is read back as a scalar in the style in which it is written: behind the indicator of an entry
or a value, up to what follows its last line, and as a key on one line, up to its colon.
-/

namespace DataBind.Yaml

/-- What is written for a text in the style chosen for it, and what allowed this style. -/
inductive WrittenAs (indent : Nat) (text : List Char) : ScalarStyle → List Char → Prop
  | plain (plain : PlainText text) (allowed : beginsAsIndicator text = false)
      (unbroken : ∀ c ∈ text, isBreak c = false) (printable : ∀ c ∈ text, isPrintable c = true) :
      WrittenAs indent text .plain text
  | single (oneLine : ∀ c ∈ text, c ≠ '\n') (printable : ∀ c ∈ text, isPrintable c = true)
      (before : hasPair isSpace isBreak text = false) (after : hasPair isBreak isSpace text = false) :
      WrittenAs indent text .singleQuoted ('\'' :: singleQuotedRest indent false text ++ ['\''])
  | double : WrittenAs indent text .doubleQuoted ('"' :: text.flatMap doubleQuotedChar ++ ['"'])
  | literal (lines : '\n' ∈ text) (printable : ∀ c ∈ text, isPrintable c = true) :
      WrittenAs indent text .literal ('|' :: literalHeader text ++ '\n' :: literalLines indent true text)

theorem plainText_of_allowed {text : List Char} (nonempty : text ≠ []) (allowed : plainAllowed text = true) :
    PlainText text ∧ beginsAsIndicator text = false ∧ (∀ c ∈ text, isBreak c = false) ∧
      ∀ c ∈ text, isPrintable c = true := by
  simp only [plainAllowed, Bool.not_eq_true', Bool.or_eq_false_iff] at allowed
  obtain ⟨⟨⟨⟨⟨first, last⟩, oneLine⟩, printable⟩, indicator⟩, separator⟩ := allowed
  have unbroken : ∀ c ∈ text, isBreak c = false := by simpa [isMultiline] using oneLine
  have printable := isPrintable_of_not_hasUnprintable printable
  refine ⟨⟨nonempty, fun c member => ?_, fun c member => ⟨?_, ?_⟩, ?_, separator⟩, indicator, unbroken, printable⟩
  · cases gap : isGap c with
    | false => exact .inr rfl
    | true =>
      rcases eq_space_or_isBreak (printable c member) gap with space | broken
      · exact .inl space
      · rw [unbroken c member] at broken
        cases broken
  · rintro rfl
    rw [Option.mem_def.mp member] at first
    cases first
  · rintro rfl
    obtain ⟨rest, rfl⟩ := List.head?_eq_some_iff.mp member
    simp [beginsAsIndicator] at indicator
  · intro space
    rw [space] at last
    cases last

theorem quotedStyle_cases (text : List Char) :
    (quotedStyle text = .singleQuoted ∧ singleQuotedAllowed text = true) ∨ quotedStyle text = .doubleQuoted := by
  cases allowed : singleQuotedAllowed text with
  | true => exact .inl ⟨if_pos allowed, rfl⟩
  | false => exact .inr (if_neg (by simp [allowed]))

theorem writtenAs (indent : Nat) (text : String) :
    WrittenAs indent text.toList (textStyle text) (writtenText indent text) := by
  cases lines : text.toList.contains '\n' with
  | true =>
    have member : '\n' ∈ text.toList := List.contains_iff_mem.mp lines
    cases allowed : literalAllowed text.toList with
    | true =>
      have style : textStyle text = .literal := (if_pos lines).trans (if_pos allowed)
      simp only [literalAllowed, Bool.not_eq_true', Bool.or_eq_false_iff] at allowed
      rw [writtenText, style]
      exact .literal member (isPrintable_of_not_hasUnprintable allowed.2)
    | false =>
      have style : textStyle text = .doubleQuoted := (if_pos lines).trans (if_neg (by simp [allowed]))
      rw [writtenText, style]
      exact .double
  | false =>
    have oneLine : ∀ c ∈ text.toList, c ≠ '\n' := by
      rintro c member rfl
      rw [List.contains_iff_mem.mpr member] at lines
      cases lines
    have unlined : ¬text.toList.contains '\n' = true := Bool.eq_false_iff.mp lines
    cases allowed : !readsAsOther text && plainAllowed text.toList with
    | true =>
      have style : textStyle text = .plain := (if_neg unlined).trans (if_pos allowed)
      simp only [Bool.and_eq_true, Bool.not_eq_true'] at allowed
      have nonempty : text.toList ≠ [] := by
        intro none
        obtain rfl : text = "" := String.toList_inj.mp none
        exact absurd allowed.1 (by decide)
      obtain ⟨plain, indicator, unbroken, printable⟩ := plainText_of_allowed nonempty allowed.2
      rw [writtenText, style]
      exact .plain plain indicator unbroken printable
    | false =>
      have style : textStyle text = quotedStyle text.toList :=
        (if_neg unlined).trans (if_neg (by simp [allowed]))
      rcases quotedStyle_cases text.toList with ⟨single, singleAllowed⟩ | double
      · simp only [singleQuotedAllowed, Bool.not_eq_true', Bool.or_eq_false_iff] at singleAllowed
        obtain ⟨⟨after, before⟩, printable⟩ := singleAllowed
        rw [writtenText, style, single]
        exact .single oneLine (isPrintable_of_not_hasUnprintable printable) before after
      · rw [writtenText, style, double]
        exact .double

variable {indent : Nat} {text written : List Char} {style : ScalarStyle}

theorem WrittenAs.exists_head (as : WrittenAs indent text style written) :
    ∃ c rest, written = c :: rest ∧ isGap c = false ∧ c ≠ '#' ∧ c ≠ '\ufeff' := by
  cases as with
  | plain plain _ _ printable =>
    obtain ⟨c, rest, rfl⟩ := List.exists_cons_of_ne_nil plain.nonempty
    obtain ⟨space, comment⟩ := plain.begins c rfl
    refine ⟨c, rest, rfl, (plain.classes c List.mem_cons_self).resolve_left space, comment, ?_⟩
    rintro rfl
    exact absurd (printable '\ufeff' List.mem_cons_self) (by decide)
  | single => exact ⟨_, _, rfl, by decide⟩
  | double => exact ⟨_, _, rfl, by decide⟩
  | literal => exact ⟨_, _, rfl, by decide⟩

theorem WrittenAs.begun (as : WrittenAs indent text style written) (tail : List Char) :
    Lexer.Begun (written ++ tail) := by
  obtain ⟨c, rest, rfl, solid⟩ := as.exists_head
  rintro d ⟨⟩
  exact solid

/-! ### Readable characters -/

theorem isReadable_spaces {c : Char} {n : Nat} (member : c ∈ spaces n) : isReadable c = true := by
  rw [mem_spaces member]
  decide

theorem isReadable_singleQuotedRest {lineStart : Bool} (printable : ∀ c ∈ text, isPrintable c = true) :
    ∀ c ∈ singleQuotedRest indent lineStart text, isReadable c = true := by
  induction text generalizing lineStart with
  | nil => exact fun c member => isReadable_spaces member
  | cons d text ih =>
    obtain ⟨first, later⟩ := List.forall_mem_cons.mp printable
    have readable := isReadable_of_isPrintable first
    rw [singleQuotedRest]
    split
    · exact List.forall_mem_cons.mpr ⟨readable, ih later⟩
    · refine List.forall_mem_append.mpr ⟨List.forall_mem_append.mpr
        ⟨fun c member => isReadable_spaces member, ?_⟩, ih later⟩
      split
      · exact List.all_eq_true.mp rfl
      · exact List.forall_mem_singleton.mpr readable

theorem isReadable_literalLines {lineStart : Bool} (printable : ∀ c ∈ text, isPrintable c = true) :
    ∀ c ∈ literalLines indent lineStart text, isReadable c = true := by
  induction text generalizing lineStart with
  | nil => exact List.forall_mem_nil _
  | cons d text ih =>
    obtain ⟨first, later⟩ := List.forall_mem_cons.mp printable
    have readable := isReadable_of_isPrintable first
    rw [literalLines]
    split
    · exact List.forall_mem_cons.mpr ⟨readable, ih later⟩
    · exact List.forall_mem_append.mpr
        ⟨fun c member => isReadable_spaces member, List.forall_mem_cons.mpr ⟨readable, ih later⟩⟩

theorem isReadable_literalHeader (text : List Char) : ∀ c ∈ literalHeader text, isReadable c = true := by
  rw [literalHeader_eq]
  cases needsIncrement text <;> cases chompingOf text <;> exact List.all_eq_true.mp rfl

theorem WrittenAs.readable (as : WrittenAs indent text style written) :
    ∀ c ∈ written, isReadable c = true := by
  cases as with
  | plain _ _ _ printable => exact fun c member => isReadable_of_isPrintable (printable c member)
  | single _ printable => exact forall_mem_quoted rfl (isReadable_singleQuotedRest printable)
  | double => exact forall_mem_quoted rfl fun c member => (doubleQuoted_readable member).2
  | literal _ printable =>
    refine List.forall_mem_append.mpr ⟨List.forall_mem_cons.mpr ⟨by decide, ?_⟩,
      List.forall_mem_cons.mpr ⟨by decide, ?_⟩⟩
    · exact isReadable_literalHeader text
    · exact isReadable_literalLines printable

/-! ### Behind an indicator -/

namespace Lexer

variable {cursor : Cursor} {parent column n : Nat} {indents : List Int} {keyAllowed : Bool}
  {produced : List Token} {next : List Char}

/-- A place of a key that only an unwritten indicator would have made one. -/
theorem markHere_bygone {number : Nat} (inside : parent < cursor.column) :
    ∀ mark ∈ (if keyAllowed then some (markHere cursor parent number) else none),
      mark.required = false ∧ mark.line = cursor.line := by
  intro mark member
  cases keyAllowed with
  | false => cases member
  | true =>
    obtain rfl := Option.some.inj member
    have other : ¬(parent : Int) = cursor.column := by omega
    exact ⟨beq_eq_false_iff_ne.mpr other, rfl⟩

/-- A scalar in quotes up to the next line. -/
theorem goes_quoted {single : Bool} {written text : List Char} (quoted : QuotedText single written text)
    (rest : cursor.rest = quote single :: written ++ [quote single] ++ ('\n' :: spaces n ++ next))
    (begun : Begun next) (inside : parent < cursor.column) :
    ∃ after, after.rest = next ∧ after.column = n ∧
      Goes (inBlock cursor parent indents keyAllowed none produced)
        ((inBlock after parent indents true none
          (.scalar (if single then .singleQuoted else .doubleQuoted) (String.ofList text) :: produced)).closeBlocks
          n) := by
  have read : quotedScalar? single cursor = some (text, cursor.past (quote single :: written ++ [quote single])) :=
    quotedScalar?_eq quoted (by simpa using rest) (by simp)
  have plain : quote single ≠ '-' ∧ quote single ≠ '.' ∧ quote single ≠ '%' := by cases single <;> decide
  have unmarked : Unmarked cursor (quote single) := unmarked_of_ne rest plain.1 plain.2.1 plain.2.2
  have step : (inBlock cursor parent indents keyAllowed none produced).step? (quote single) = some _ :=
    (step?_quote single unmarked).trans (quoted?_inBlock read)
  have behind := Cursor.rest_past rest
  have bygone : ∀ mark ∈ (if keyAllowed then some (markHere cursor parent produced.length) else none),
      mark.required = false ∧ mark.line ≤ (cursor.past (quote single :: written ++ [quote single])).line :=
    fun mark member => by
      obtain ⟨optional, line⟩ := markHere_bygone inside mark member
      exact ⟨optional, line ▸ Cursor.line_le_past cursor _⟩
  obtain ⟨after, restAfter, columnAfter, reaches⟩ := reaches_lineEnd behind begun bygone
  exact ⟨after, restAfter, columnAfter, reaches.goes rest step (Cursor.length_past_lt rest (by simp))⟩

/-- A plain scalar up to what follows on the next line. -/
theorem goes_plain {text : List Char} (plain : PlainText text) (allowed : beginsAsIndicator text = false)
    (rest : cursor.rest = text ++ ('\n' :: spaces n ++ next)) (begun : Begun next) (outside : n ≤ parent)
    (inside : parent < cursor.column) :
    ∃ after, after.rest = next ∧ after.column = n ∧
      Goes (inBlock cursor parent indents keyAllowed none produced)
        ((inBlock after parent indents true none (.scalar .plain (String.ofList text) :: produced)).closeBlocks n) := by
  have indented : cursor.column ≠ 0 := by omega
  have limit : ((parent : Int) + 1).toNat = parent + 1 := by omega
  have stop : PlainStop ((parent : Int) + 1).toNat ('\n' :: spaces n ++ next) ('\n' :: spaces n) true :=
    .line (by omega) begun.solid
  have unmarked : cursor.seesDocumentMarker = false := by
    simp [Cursor.seesDocumentMarker, Cursor.seesMarker, indented]
  have read := plainScalar?_text plain stop rest (by omega) unmarked
  have whole : cursor.rest = (text ++ '\n' :: spaces n) ++ next := by simpa using rest
  have bygone : ∀ mark ∈ (if keyAllowed then some (markHere cursor parent produced.length) else none),
      mark.required = false ∧ mark.line < (cursor.past (text ++ '\n' :: spaces n)).line := fun mark member => by
    obtain ⟨optional, line⟩ := markHere_bygone inside mark member
    rw [line, Cursor.past_append]
    exact ⟨optional, Nat.lt_of_le_of_lt (Cursor.line_le_past cursor text) (Cursor.line_lt_past (by decide) _)⟩
  have column := Cursor.column_past_indentation (c := '\n') rfl cursor text n
  have behind := Cursor.rest_past whole
  obtain ⟨c, later, rfl⟩ := List.exists_cons_of_ne_nil plain.nonempty
  have solid := (plain.classes c List.mem_cons_self).resolve_left (plain.begins c rfl).1
  have step : (inBlock cursor parent indents keyAllowed none produced).step? c = some _ :=
    (step?_plain allowed rfl rest solid (unmarked_of_column indented c)).trans (plain?_inBlock read)
  exact ⟨_, behind, column, (reaches_bygone behind begun bygone column).goes rest step
    (Cursor.length_past_lt whole (by simp))⟩

/-- A literal scalar up to what follows its last line. -/
theorem goes_literal {text : List Char} (nonempty : text ≠ []) (printable : ∀ c ∈ text, isPrintable c = true)
    (rest : cursor.rest = '|' :: literalHeader text ++
      '\n' :: (literalLines (parent + 2) true text ++ lineEnd text ++ (spaces n ++ next)))
    (begun : Begun next) (outside : n ≤ parent) (inside : parent < cursor.column) :
    ∃ after, after.rest = next ∧ after.column = n ∧
      Goes (inBlock cursor parent indents keyAllowed none produced)
        ((inBlock after parent indents true none (.scalar .literal (String.ofList text) :: produced)).closeBlocks
          n) := by
  have indented : cursor.column ≠ 0 := by omega
  have read := blockScalar?_literal nonempty printable outside begun.solid rest
  have whole : cursor.rest = ('|' :: literalHeader text ++
      '\n' :: (literalLines (parent + 2) true text ++ lineEnd text ++ spaces n)) ++ next := by
    simpa using rest
  have behind := Cursor.rest_past whole
  have column : (cursor.past ('|' :: literalHeader text ++
      '\n' :: (literalLines (parent + 2) true text ++ lineEnd text ++ spaces n))).column = n := by
    obtain ⟨init, b, same, broken⟩ := exists_lineEnd (literalLines (parent + 2) true text)
    rw [lineEnd_literalLines nonempty] at same
    have split : '|' :: literalHeader text ++ '\n' :: (init ++ [b] ++ spaces n) =
        ('|' :: literalHeader text ++ '\n' :: init) ++ b :: spaces n := by simp
    rw [same, split]
    exact Cursor.column_past_indentation broken cursor _ n
  have step : (inBlock cursor parent indents keyAllowed none produced).step? '|' = some _ :=
    (step?_bar (unmarked_of_column indented '|') rfl).trans (block?_inBlock read)
  exact ⟨_, behind, column, (reaches_bygone behind begun (by simp) column).goes rest step
    (Cursor.length_past_lt whole (by simp))⟩

theorem lineEnd_literal {text : List Char} (nonempty : text ≠ []) (header : List Char) (indent : Nat) :
    lineEnd ('|' :: header ++ '\n' :: literalLines indent true text) = lineEnd text := by
  have linesNonempty : literalLines indent true text ≠ [] := by
    have length := length_le_literalLines indent true text
    exact List.ne_nil_of_length_pos (Nat.lt_of_lt_of_le (List.length_pos_iff.mpr nonempty) length)
  rw [lineEnd_of_ne_nil _ (List.cons_ne_nil _ _), ← List.singleton_append, lineEnd_of_ne_nil _ linesNonempty,
    lineEnd_literalLines nonempty]

/-- A text behind an indicator is one token, and the lexer is at what follows its last line then. -/
theorem goes_text {style : ScalarStyle} {text written : List Char}
    (as : WrittenAs (parent + 2) text style written)
    (rest : cursor.rest = written ++ lineEnd written ++ (spaces n ++ next)) (begun : Begun next)
    (outside : n ≤ parent) (inside : parent < cursor.column) :
    ∃ after, after.rest = next ∧ after.column = n ∧
      Goes (inBlock cursor parent indents keyAllowed none produced)
        ((inBlock after parent indents true none (.scalar style (String.ofList text) :: produced)).closeBlocks n) := by
  cases as with
  | plain plain allowed unbroken =>
    rw [lineEnd_unbroken plain.nonempty unbroken, List.append_assoc] at rest
    exact goes_plain plain allowed rest begun outside inside
  | single oneLine printable before after =>
    rw [lineEnd_concat (by decide), List.append_assoc] at rest
    exact goes_quoted (quotedText_single (by omega) oneLine printable before after) rest begun inside
  | double =>
    rw [lineEnd_concat (by decide), List.append_assoc] at rest
    exact goes_quoted (quotedText_double text) rest begun inside
  | literal lines printable =>
    have nonempty : text ≠ [] := List.ne_nil_of_mem lines
    rw [lineEnd_literal nonempty] at rest
    exact goes_literal nonempty printable (by simpa using rest) begun outside inside

end Lexer

end DataBind.Yaml
