import DataBind.Yaml.Cursor

/-!
# Moving over characters

Where a cursor is after some characters of its rest follows from these characters alone. The ways in which
the lexer moves agree with it, for characters within a line and for line breaks of one character.
-/

namespace DataBind.Yaml

theorem isGap_of_isBreak {c : Char} (h : isBreak c = true) : isGap c = true := by
  rw [isGap, h, Bool.or_true]

theorem isBreak_of_not_isGap {c : Char} (h : isGap c = false) : isBreak c = false :=
  (Bool.or_eq_false_iff.mp h).2

theorem isBlank_of_not_isGap {c : Char} (h : isGap c = false) : isBlank c = false :=
  (Bool.or_eq_false_iff.mp h).1

namespace Cursor

theorem foldl_byteCount (chars : List Char) (count : Nat) :
    chars.foldl (fun count c => count + c.utf8Size) count = count + byteCount chars := by
  induction chars generalizing count with
  | nil => rfl
  | cons c rest ih =>
    rw [byteCount, List.foldl_cons, List.foldl_cons, ih, ih (0 + _), Nat.zero_add, Nat.add_assoc]

theorem byteCount_cons (c : Char) (rest : List Char) :
    byteCount (c :: rest) = c.utf8Size + byteCount rest := by
  rw [byteCount, List.foldl_cons, Nat.zero_add, foldl_byteCount]

theorem byteCount_append (first rest : List Char) :
    byteCount (first ++ rest) = byteCount first + byteCount rest := by
  rw [byteCount, List.foldl_append, foldl_byteCount]
  rfl

/-- The cursor after characters of its rest. -/
def past (cursor : Cursor) : List Char → Cursor
  | [] => cursor
  | c :: chars =>
    if isBreak c then (cursor.nextLine [c] (cursor.rest.drop 1)).past chars
    else (cursor.advance 1).past chars

variable {cursor : Cursor} {chars tail : List Char} {c : Char}

theorem past_append (cursor : Cursor) (first second : List Char) :
    cursor.past (first ++ second) = (cursor.past first).past second := by
  induction first generalizing cursor with
  | nil => rfl
  | cons c first ih =>
    rw [List.cons_append, past, past]
    split <;> exact ih _

theorem past_cons (cursor : Cursor) (c : Char) (chars : List Char) :
    cursor.past (c :: chars) = (cursor.past [c]).past chars :=
  past_append cursor [c] chars

theorem past_break (broken : isBreak c = true) (chars : List Char) :
    cursor.past (c :: chars) = (cursor.nextLine [c] (cursor.rest.drop 1)).past chars := by
  rw [past, if_pos broken]

theorem past_unbroken (unbroken : isBreak c = false) (chars : List Char) :
    cursor.past (c :: chars) = (cursor.advance 1).past chars := by
  rw [past, if_neg (by rw [unbroken]; decide)]

theorem rest_past (rest : cursor.rest = chars ++ tail) : (cursor.past chars).rest = tail := by
  induction chars generalizing cursor with
  | nil => exact rest
  | cons c chars ih =>
    rw [past]
    split
    · exact ih (congrArg (List.drop 1) rest)
    · exact ih (congrArg (List.drop 1) rest)

theorem length_past (rest : cursor.rest = chars ++ tail) :
    (cursor.past chars).rest.length + chars.length = cursor.rest.length := by
  rw [rest_past rest, rest, List.length_append, Nat.add_comm]

theorem length_past_lt (rest : cursor.rest = chars ++ tail) (nonempty : chars ≠ []) :
    (cursor.past chars).rest.length < cursor.rest.length := by
  have length := length_past rest
  have positive := List.length_pos_iff.mpr nonempty
  omega

theorem index_past (rest : cursor.rest = chars ++ tail) :
    (cursor.past chars).index = cursor.index + byteCount chars := by
  induction chars generalizing cursor with
  | nil => rfl
  | cons c chars ih =>
    rw [past, byteCount_cons, ← Nat.add_assoc]
    have first : byteCount [c] = c.utf8Size := by rw [byteCount_cons]; rfl
    split
    · rw [ih (congrArg (List.drop 1) rest), nextLine, first]
    · rw [ih (congrArg (List.drop 1) rest), advance, rest, List.cons_append, List.take_succ_cons,
        List.take_zero, first]

theorem line_le_past (cursor : Cursor) (chars : List Char) : cursor.line ≤ (cursor.past chars).line := by
  induction chars generalizing cursor with
  | nil => exact Nat.le_refl _
  | cons c chars ih =>
    rw [past]
    split
    · have later := ih (cursor.nextLine [c] (cursor.rest.drop 1))
      exact Nat.le_trans (Nat.le_succ _) later
    · exact ih (cursor.advance 1)

theorem line_past (unbroken : ∀ c ∈ chars, isBreak c = false) :
    (cursor.past chars).line = cursor.line := by
  induction chars generalizing cursor with
  | nil => rfl
  | cons c chars ih =>
    obtain ⟨first, later⟩ := List.forall_mem_cons.mp unbroken
    rw [past_unbroken first, ih later]
    rfl

theorem column_past (unbroken : ∀ c ∈ chars, isBreak c = false) :
    (cursor.past chars).column = cursor.column + chars.length := by
  induction chars generalizing cursor with
  | nil => rfl
  | cons c chars ih =>
    obtain ⟨first, later⟩ := List.forall_mem_cons.mp unbroken
    rw [past_unbroken first, ih later, advance, List.length_cons, Nat.add_assoc, Nat.add_comm 1]

theorem column_past_break (broken : isBreak c = true) (unbroken : ∀ c ∈ chars, isBreak c = false) :
    (cursor.past (c :: chars)).column = chars.length := by
  rw [past_break broken, column_past unbroken, nextLine, Nat.zero_add]

theorem line_lt_past (broken : isBreak c = true) (chars : List Char) :
    cursor.line < (cursor.past (c :: chars)).line := by
  rw [past_break broken]
  exact line_le_past (cursor.nextLine [c] (cursor.rest.drop 1)) chars

/-! ### The moves of the lexer -/

theorem advance_advance (cursor : Cursor) (m n : Nat) :
    (cursor.advance m).advance n = cursor.advance (m + n) := by
  simp only [advance, List.drop_drop, List.take_add, byteCount_append, Nat.add_assoc]

theorem advance_zero (cursor : Cursor) : cursor.advance 0 = cursor := rfl

theorem advance_eq_past (unbroken : ∀ c ∈ chars, isBreak c = false) :
    cursor.advance chars.length = cursor.past chars := by
  induction chars generalizing cursor with
  | nil => exact cursor.advance_zero
  | cons c chars ih =>
    obtain ⟨first, later⟩ := List.forall_mem_cons.mp unbroken
    rw [past_unbroken first, ← ih later, advance_advance, List.length_cons, Nat.add_comm]

theorem goTo_eq_past (rest : cursor.rest = chars ++ tail) (unbroken : ∀ c ∈ chars, isBreak c = false) :
    cursor.goTo tail = cursor.past chars := by
  rw [goTo, rest, List.length_append, Nat.add_sub_cancel, advance_eq_past unbroken]

theorem spanWhile_eq_past {p : Char → Bool} (rest : cursor.rest = chars ++ tail)
    (inside : ∀ c ∈ chars, p c) (outside : ∀ c ∈ tail.head?, p c = false)
    (unbroken : ∀ c ∈ chars, isBreak c = false) :
    cursor.spanWhile p = (chars, cursor.past chars) := by
  have taken : cursor.rest.takeWhile p = chars := by
    rw [rest, List.takeWhile_append_of_pos inside]
    cases tail with
    | nil => exact List.append_nil chars
    | cons c tail => rw [List.takeWhile_cons_of_neg (by simp [outside c rfl]), List.append_nil]
  rw [spanWhile, taken, advance_eq_past unbroken]

theorem skipWhile_eq_self {p : Char → Bool} (outside : ∀ c ∈ cursor.rest.head?, p c = false) :
    cursor.skipWhile p = cursor := by
  rw [skipWhile, spanWhile_eq_past (List.nil_append _).symm (List.forall_mem_nil _) outside
    (List.forall_mem_nil _)]
  rfl

/-- Line breaks that a scalar keeps as they are. -/
theorem takeBreak_eq_past (rest : cursor.rest = c :: tail) (broken : isBreak c = true)
    (printable : isPrintable c = true) : cursor.takeBreak = ([c], cursor.past [c]) := by
  have kept : c = '\n' ∨ c = '\u2028' ∨ c = '\u2029' := by
    simp only [isBreak, Bool.or_eq_true, beq_iff_eq] at broken
    rcases broken with (((rfl | rfl) | rfl) | rfl) | rfl
    · exact .inl rfl
    · exact absurd printable (by decide)
    · exact absurd printable (by decide)
    · exact .inr (.inl rfl)
    · exact .inr (.inr rfl)
  rw [past_break broken, past, rest, List.drop_one, List.tail_cons]
  rcases kept with rfl | rfl | rfl <;> simp [takeBreak, rest, isBreak]

end Cursor

end DataBind.Yaml
