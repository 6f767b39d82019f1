import DataBind.Proofs.Yaml.LexerRuns

/-!
# Steps in a block

The indicators of entries, keys and values, empty collections, and scalars in each style, as the writer
leaves them: one token and the tokens that it brings.
-/

namespace DataBind.Yaml.Lexer

variable {lexer : Lexer} {cursor : Cursor} {indent : Int} {indents indents' : List Int}
  {produced produced' : List Token} {column n : Nat} {c d : Char} {tail next : List Char}
  {keyAllowed : Bool} {keyMark : Option KeyMark}

/-! ### What a character begins -/

/-- No directive and no marker begins at the character. -/
structure Unmarked (cursor : Cursor) (c : Char) : Prop where
  percent : (cursor.column == 0 && c == '%') = false
  dashes : cursor.seesMarker '-' = false
  dots : cursor.seesMarker '.' = false

theorem unmarked_of_ne {a : Char} (rest : cursor.rest = a :: tail) (dash : a ≠ '-') (dot : a ≠ '.')
    (percent : a ≠ '%') : Unmarked cursor a := by
  refine ⟨by simp [percent], ?_, ?_⟩
  · simp [Cursor.seesMarker, rest, dash]
  · simp [Cursor.seesMarker, rest, dot]

theorem unmarked_of_second {a b : Char} (rest : cursor.rest = a :: b :: tail) (dash : b ≠ '-') (dot : b ≠ '.')
    (percent : a ≠ '%') : Unmarked cursor a := by
  refine ⟨by simp [percent], ?_, ?_⟩
  · simp [Cursor.seesMarker, rest, dash]
  · simp [Cursor.seesMarker, rest, dot]

theorem unmarked_of_column (inside : cursor.column ≠ 0) (c : Char) : Unmarked cursor c :=
  ⟨by simp [inside], by simp [Cursor.seesMarker, inside], by simp [Cursor.seesMarker, inside]⟩

theorem step?_dash (unmarked : Unmarked lexer.cursor '-') (gap : lexer.cursor.gapAt 1 = true) :
    lexer.step? '-' = lexer.blockEntry? := by
  obtain ⟨percent, dashes, dots⟩ := unmarked
  unfold step?
  dsimp only
  rw [percent, if_neg Bool.false_ne_true, dashes, if_neg Bool.false_ne_true, dots, if_neg Bool.false_ne_true]
  exact if_pos gap

theorem step?_question (unmarked : Unmarked lexer.cursor '?') (gap : lexer.cursor.gapAt 1 = true) :
    lexer.step? '?' = lexer.key? := by
  obtain ⟨percent, dashes, dots⟩ := unmarked
  have here : (lexer.inFlow || lexer.cursor.gapAt 1) = true := by rw [gap, Bool.or_true]
  unfold step?
  dsimp only
  rw [percent, if_neg Bool.false_ne_true, dashes, if_neg Bool.false_ne_true, dots, if_neg Bool.false_ne_true]
  exact if_pos here

theorem step?_colon (unmarked : Unmarked lexer.cursor ':')
    (here : (lexer.inFlow || lexer.cursor.gapAt 1) = true) : lexer.step? ':' = lexer.value? := by
  obtain ⟨percent, dashes, dots⟩ := unmarked
  unfold step?
  dsimp only
  rw [percent, if_neg Bool.false_ne_true, dashes, if_neg Bool.false_ne_true, dots, if_neg Bool.false_ne_true]
  exact if_pos here

theorem step?_quote (single : Bool) (unmarked : Unmarked lexer.cursor (quote single)) :
    lexer.step? (quote single) = lexer.quoted? single := by
  obtain ⟨percent, dashes, dots⟩ := unmarked
  unfold step?
  dsimp only
  rw [percent, if_neg Bool.false_ne_true, dashes, if_neg Bool.false_ne_true, dots, if_neg Bool.false_ne_true]
  cases single <;> rfl

theorem step?_bar (unmarked : Unmarked lexer.cursor '|') (block : lexer.inFlow = false) :
    lexer.step? '|' = lexer.block? false := by
  obtain ⟨percent, dashes, dots⟩ := unmarked
  have here : (!lexer.inFlow) = true := by rw [block]; rfl
  unfold step?
  dsimp only
  rw [percent, if_neg Bool.false_ne_true, dashes, if_neg Bool.false_ne_true, dots, if_neg Bool.false_ne_true]
  exact if_pos here

/-- No plain text begins with one of these. -/
def otherIndicators : List Char :=
  "#,[]\x7b\x7d&*!|>'\"%@\x60".toList

theorem mem_otherIndicators (h : isIndicator c = true) :
    c = '-' ∨ c = '?' ∨ c = ':' ∨ c ∈ otherIndicators := by
  have all : "-?:,[]\x7b\x7d#&*!|>'\"%@\x60".toList.all
      (fun d => d = '-' ∨ d = '?' ∨ d = ':' ∨ d ∈ otherIndicators) = true := by decide
  exact of_decide_eq_true (List.all_eq_true.mp all c (List.contains_iff_mem.mp h))

/-- What is known of the first character of a plain text and of the one behind it. -/
theorem not_beginsAsIndicator {text : List Char} (allowed : beginsAsIndicator (c :: text) = false) :
    c ∉ otherIndicators ∧ (c = '-' ∨ c = '?' ∨ c = ':' → beginsWithGap text = false) ∧
      (c :: text).take 3 ≠ ['-', '-', '-'] ∧ (c :: text).take 3 ≠ ['.', '.', '.'] := by
  simp only [beginsAsIndicator, Bool.or_eq_false_iff, beq_eq_false_iff_ne, Bool.and_eq_false_iff] at allowed
  obtain ⟨⟨⟨dashes, dots⟩, plain⟩, blank⟩ := allowed
  refine ⟨fun member => ?_, fun indicator => ?_, dashes, dots⟩
  · have listed : otherIndicators.contains c = true := List.contains_iff_mem.mpr member
    exact Bool.false_ne_true (plain.symm.trans listed)
  · rcases blank with none | blank
    · obtain ⟨⟨question, colon⟩, dash⟩ := none
      rcases indicator with same | same | same
      · exact absurd same dash
      · exact absurd same question
      · exact absurd same colon
    · exact blank

theorem step?_plain {text : List Char} (allowed : beginsAsIndicator (c :: text) = false)
    (block : lexer.inFlow = false) (rest : lexer.cursor.rest = c :: text ++ tail) (solid : isGap c = false)
    (unmarked : Unmarked lexer.cursor c) : lexer.step? c = lexer.plain? := by
  obtain ⟨percent, dashes, dots⟩ := unmarked
  obtain ⟨other, goesOn, -, -⟩ := not_beginsAsIndicator allowed
  have notGapAt : c = '-' ∨ c = '?' ∨ c = ':' → lexer.cursor.gapAt 1 = false := by
    intro indicator
    have next := goesOn indicator
    cases text with
    | nil => cases next
    | cons d text =>
      have here : isGap d = false := next
      simpa [Cursor.gapAt, rest] using here
  unfold step?
  dsimp only
  rw [percent, if_neg Bool.false_ne_true, dashes, if_neg Bool.false_ne_true, dots, if_neg Bool.false_ne_true]
  split
  all_goals try exact absurd (by decide) other
  have noBar : c ≠ '|' := by
    rintro rfl
    exact other (by decide)
  have noFold : c ≠ '>' := by
    rintro rfl
    exact other (by decide)
  have reaches : (!isIndicator c || c == '-' || (!lexer.inFlow && (c == '?' || c == ':'))) = true := by
    by_cases indicator : isIndicator c = true
    · rcases mem_otherIndicators indicator with rfl | rfl | rfl | member
      · simp
      · simp [block]
      · simp [block]
      · exact absurd member other
    · simp [indicator]
  have noEntry : (c == '-' && lexer.cursor.gapAt 1) = false := by
    by_cases same : c = '-'
    · simp [notGapAt (.inl same)]
    · simp [same]
  have noKey : (c == '?' && (lexer.inFlow || lexer.cursor.gapAt 1)) = false := by
    by_cases same : c = '?'
    · simp [block, notGapAt (.inr (.inl same))]
    · simp [same]
  have noValue : (c == ':' && (lexer.inFlow || lexer.cursor.gapAt 1)) = false := by
    by_cases same : c = ':'
    · simp [block, notGapAt (.inr (.inr same))]
    · simp [same]
  simp [noEntry, noKey, noValue, noBar, noFold, solid, reaches]

/-! ### Flow collections -/

def openMark (mapping : Bool) : Char :=
  if mapping then '\x7b' else '['

def closeMark (mapping : Bool) : Char :=
  if mapping then '\x7d' else ']'

def openToken (mapping : Bool) : Token :=
  if mapping then .flowMappingStart else .flowSequenceStart

def closeToken (mapping : Bool) : Token :=
  if mapping then .flowMappingEnd else .flowSequenceEnd

theorem isBreak_openMark (mapping : Bool) : isBreak (openMark mapping) = false := by
  cases mapping <;> decide

theorem isBreak_closeMark (mapping : Bool) : isBreak (closeMark mapping) = false := by
  cases mapping <;> decide

theorem step?_openMark (mapping : Bool) (rest : lexer.cursor.rest = openMark mapping :: tail) :
    lexer.step? (openMark mapping) = lexer.openFlow? (openToken mapping) := by
  have plain : openMark mapping ≠ '-' ∧ openMark mapping ≠ '.' ∧ openMark mapping ≠ '%' := by
    cases mapping <;> decide
  obtain ⟨percent, dashes, dots⟩ := unmarked_of_ne rest plain.1 plain.2.1 plain.2.2
  unfold step?
  dsimp only
  rw [percent, if_neg Bool.false_ne_true, dashes, if_neg Bool.false_ne_true, dots, if_neg Bool.false_ne_true]
  cases mapping <;> rfl

theorem step?_closeMark (mapping : Bool) (rest : lexer.cursor.rest = closeMark mapping :: tail) :
    lexer.step? (closeMark mapping) = lexer.closeFlow? (closeToken mapping) := by
  have plain : closeMark mapping ≠ '-' ∧ closeMark mapping ≠ '.' ∧ closeMark mapping ≠ '%' := by
    cases mapping <;> decide
  obtain ⟨percent, dashes, dots⟩ := unmarked_of_ne rest plain.1 plain.2.1 plain.2.2
  unfold step?
  dsimp only
  rw [percent, if_neg Bool.false_ne_true, dashes, if_neg Bool.false_ne_true, dots, if_neg Bool.false_ne_true]
  cases mapping <;> rfl

/-! ### Indicators -/

section Indicators

theorem openBlockHere?_inBlock {token : Token}
    (opens : Opens cursor.column token indent indents produced indents' produced') :
    (inBlock cursor indent indents true none produced).openBlockHere? token =
      some (inBlock cursor cursor.column indents' true none produced') :=
  congrArg some opens.openBlock

theorem step?_blockEntry
    (opens : Opens cursor.column .blockSequenceStart indent indents produced indents' produced')
    (rest : cursor.rest = '-' :: d :: tail) (gap : isGap d = true) :
    (inBlock cursor indent indents true none produced).step? '-' =
      some (inBlock (cursor.past ['-']) cursor.column indents' true none (.blockEntry :: produced')) := by
  have noDash : d ≠ '-' := by
    rintro rfl
    exact absurd gap (by decide)
  have noDot : d ≠ '.' := by
    rintro rfl
    exact absurd gap (by decide)
  have gapAt : cursor.gapAt 1 = true := by simp [Cursor.gapAt, rest, gap]
  rw [step?_dash (unmarked_of_second rest noDash noDot (by decide)) gapAt, blockEntry?,
    openBlockHere?_inBlock opens]
  rfl

theorem step?_key
    (opens : Opens cursor.column .blockMappingStart indent indents produced indents' produced')
    (rest : cursor.rest = '?' :: d :: tail) (gap : isGap d = true) :
    (inBlock cursor indent indents true none produced).step? '?' =
      some (inBlock (cursor.past ['?']) cursor.column indents' true none (.key :: produced')) := by
  have gapAt : cursor.gapAt 1 = true := by simp [Cursor.gapAt, rest, gap]
  rw [step?_question (unmarked_of_ne rest (by decide) (by decide) (by decide)) gapAt, key?,
    openBlockHere?_inBlock opens]
  rfl

/-- The colon after a key with an indicator of its own. -/
theorem step?_value (rest : cursor.rest = ':' :: d :: tail) (gap : isGap d = true) :
    (inBlock cursor cursor.column indents true none produced).step? ':' =
      some (inBlock (cursor.past [':']) cursor.column indents true none (.value :: produced)) := by
  have gapAt : cursor.gapAt 1 = true := by simp [Cursor.gapAt, rest, gap]
  rw [step?_colon (unmarked_of_ne rest (by decide) (by decide) (by decide)) (by rw [inBlock, gapAt, Bool.or_true]),
    value?]
  dsimp only [inBlock]
  rw [← inBlock, openBlockHere?_inBlock .here]
  rfl

theorem emitAt_behind {scalar token : Token} (number : n = produced.length) :
    (inBlock cursor indent indents keyAllowed keyMark (scalar :: produced)).emitAt n token =
      inBlock cursor indent indents keyAllowed keyMark (scalar :: token :: produced) := by
  simp [emitAt, inBlock, number]

theorem emitAt_behind_two {scalar token between : Token} (number : n = produced.length) :
    (inBlock cursor indent indents keyAllowed keyMark (scalar :: between :: produced)).emitAt n token =
      inBlock cursor indent indents keyAllowed keyMark (scalar :: between :: token :: produced) := by
  have later : produced.length + 1 + 1 - produced.length = 2 := by omega
  simp [emitAt, inBlock, number, later]

/-- The colon after a key that was only marked as one. -/
theorem step?_markedValue {mark : KeyMark} {scalar : Token}
    (opens : Opens mark.column .blockMappingStart indent indents produced indents' produced')
    (number : mark.number = produced.length) (rest : cursor.rest = ':' :: d :: tail) (gap : isGap d = true) :
    (inBlock cursor indent indents false (some mark) (scalar :: produced)).step? ':' =
      some (inBlock (cursor.past [':']) mark.column indents' false none
        (.value :: scalar :: .key :: produced')) := by
  have gapAt : cursor.gapAt 1 = true := by simp [Cursor.gapAt, rest, gap]
  rw [step?_colon (unmarked_of_ne rest (by decide) (by decide) (by decide)) (by rw [inBlock, gapAt, Bool.or_true]),
    value?]
  dsimp only [inBlock]
  rw [← inBlock, emitAt_behind number, openBlock]
  cases opens with
  | here =>
    simp [inBlock, inFlow]
    rfl
  | further further =>
    rw [emitAt_behind_two number]
    simp [inBlock, inFlow, further]
    rfl

end Indicators

/-! ### Scalars -/

section Scalars

/-- What marks a key that begins at the cursor, after so many tokens. -/
def markHere (cursor : Cursor) (indent : Int) (number : Nat) : KeyMark where
  required := indent == cursor.column
  number := number
  index := cursor.index
  line := cursor.line
  column := cursor.column

theorem markKey?_inBlock (keyAllowed : Bool) :
    (inBlock cursor indent indents keyAllowed none produced).markKey? =
      some (inBlock cursor indent indents keyAllowed
        (if keyAllowed then some (markHere cursor indent produced.length) else none) produced) := by
  cases keyAllowed <;> rfl

variable {after : Cursor} {text : List Char} {broken : Bool}

theorem quoted?_inBlock {single : Bool} (read : quotedScalar? single cursor = some (text, after)) :
    (inBlock cursor indent indents keyAllowed none produced).quoted? single =
      some (inBlock after indent indents false
        (if keyAllowed then some (markHere cursor indent produced.length) else none)
        (.scalar (if single then .singleQuoted else .doubleQuoted) (String.ofList text) :: produced)) := by
  rw [quoted?, content?, markKey?_inBlock]
  dsimp only [Option.bind_eq_bind, Option.bind_some, inBlock]
  rw [read]
  rfl

theorem plain?_inBlock (read : plainScalar? false (indent + 1).toNat cursor = some (text, broken, after)) :
    (inBlock cursor indent indents keyAllowed none produced).plain? =
      some (inBlock after indent indents broken
        (if keyAllowed then some (markHere cursor indent produced.length) else none)
        (.scalar .plain (String.ofList text) :: produced)) := by
  rw [plain?, markKey?_inBlock]
  dsimp only [Option.bind_eq_bind, Option.bind_some, inBlock]
  have block : plainScalar? (inFlow ⟨cursor, 0, indent, indents, keyAllowed,
      if keyAllowed then some (markHere cursor indent produced.length) else none, [], produced⟩)
      (indent + 1).toNat cursor = some (text, broken, after) := read
  rw [block]
  rfl

theorem block?_inBlock (read : blockScalar? false indent cursor = some (text, after)) :
    (inBlock cursor indent indents keyAllowed none produced).block? false =
      some (inBlock after indent indents true none (.scalar .literal (String.ofList text) :: produced)) := by
  rw [block?, forgetMark?]
  dsimp only [Option.bind_eq_bind, Option.bind_some, inBlock]
  rw [read]
  rfl

end Scalars

end DataBind.Yaml.Lexer
