import DataBind.Proofs.Yaml.PlainScalars
import DataBind.Yaml.Block
import DataBind.Yaml.BlockText

/-!
# Literal scalars read back

The header says how the last line breaks count, and gives the indentation where the first line would not
show it. The lines are then read one by one, each with the line breaks behind it.
-/

namespace DataBind.Yaml

variable {indent fuel : Nat} {cursor : Cursor} {cs breaks line rest tail next : List Char} {n : Nat}

/-! ### Line breaks and indentation -/

/-- Spaces before a further line of the scalar, or before what follows it. -/
def LineStart (indent n : Nat) (tail : List Char) : Prop :=
  (n = indent ∧ ∃ c rest, tail = c :: rest ∧ isBreak c = false) ∨
    (n < indent ∧ ∀ c ∈ tail.head?, isGap c = false)

theorem takeWhile_spaces (n : Nat) (tail : List Char) :
    (spaces n ++ tail).takeWhile (· == ' ') = spaces n ++ tail.takeWhile (· == ' ') :=
  List.takeWhile_append_of_pos fun c member => by simp [mem_spaces member]

theorem blockBreaks?_stop (widest : Nat) (start : LineStart indent n tail) (column : cursor.column = 0)
    (rest : cursor.rest = spaces n ++ tail) :
    blockBreaks? (some indent) (fuel + 1) widest cursor =
      some ([], max widest n, cursor.past (spaces n)) := by
  have behind := Cursor.rest_past rest
  have atColumn : (cursor.past (spaces n)).column = n := by
    rw [Cursor.column_past_spaces, column, Nat.zero_add]
  have moved : cursor.advance (min (cursor.rest.takeWhile (· == ' ')).length (indent - cursor.column)) =
      cursor.past (spaces n) := by
    have width : min (cursor.rest.takeWhile (· == ' ')).length (indent - cursor.column) = (spaces n).length := by
      rw [rest, takeWhile_spaces, column, List.length_append, spaces, List.length_replicate]
      rcases start with ⟨rfl, -⟩ | ⟨outside, solid⟩
      · omega
      · have none : tail.takeWhile (· == ' ') = [] := by
          cases tail with
          | nil => rfl
          | cons c tail =>
            have plain : c ≠ ' ' := by
              rintro rfl
              exact absurd (solid ' ' rfl) (by decide)
            simp [plain]
        simp [none]
        omega
    rw [width, Cursor.advance_eq_past fun _ => isBreak_of_mem_spaces]
  rw [blockBreaks?]
  simp only [moved, atColumn]
  have unbroken : (cursor.past (spaces n)).sees isBreak = false := by
    rw [Cursor.sees, behind]
    rcases start with ⟨-, c, tail, rfl, unbroken⟩ | ⟨-, solid⟩
    · exact unbroken
    · cases tail with
      | nil => rfl
      | cons c tail => exact isBreak_of_not_isGap (solid c rfl)
  have noTab : (decide (n < indent) && (cursor.past (spaces n)).seesChar '\t') = false := by
    rcases start with ⟨rfl, -⟩ | ⟨-, solid⟩
    · simp
    · have plain : tail.head? ≠ some '\t' := fun tab => absurd (solid '\t' tab) (by decide)
      simp [Cursor.seesChar, behind, plain]
  simp [noTab, unbroken]

theorem blockBreaks?_lines (widest : Nat) (kept : ∀ c ∈ breaks, isBreak c = true ∧ isPrintable c = true)
    (start : LineStart indent n tail) (column : cursor.column = 0)
    (rest : cursor.rest = breaks ++ (spaces n ++ tail)) (enough : breaks.length < fuel) :
    ∃ widest', blockBreaks? (some indent) fuel widest cursor =
      some (breaks, widest', cursor.past (breaks ++ spaces n)) := by
  induction breaks generalizing cursor fuel widest with
  | nil =>
    obtain ⟨fuel, rfl⟩ := Nat.exists_eq_add_of_lt enough
    rw [List.length_nil, Nat.zero_add]
    exact ⟨_, blockBreaks?_stop widest start column rest⟩
  | cons c breaks ih =>
    obtain ⟨fuel, rfl⟩ := Nat.exists_eq_add_of_lt enough
    obtain ⟨⟨broken, printable⟩, later⟩ := List.forall_mem_cons.mp kept
    have taken := Cursor.takeBreak_eq_past rest broken printable
    have behind : (cursor.past [c]).rest = breaks ++ (spaces n ++ tail) := Cursor.rest_past rest
    have column' : (cursor.past [c]).column = 0 := Cursor.column_past_break broken (List.forall_mem_nil _)
    have enough' : breaks.length < (c :: breaks).length + fuel := by simp; omega
    obtain ⟨widest', read⟩ := ih widest later column' behind enough'
    have notSpace : c ≠ ' ' := by
      rintro rfl
      exact absurd broken (by decide)
    have notTab : c ≠ '\t' := by
      rintro rfl
      exact absurd broken (by decide)
    refine ⟨widest', ?_⟩
    rw [List.cons_append, Cursor.past_cons, blockBreaks?]
    simp [rest, notSpace, column, Cursor.advance_zero, Cursor.seesChar, notTab, Cursor.sees, broken, taken]
    simpa using read

/-- Without an indentation given, that of the first line is seen. -/
theorem blockBreaks?_first {c : Char} (solid : isGap c = false) (column : cursor.column = 0)
    (rest : cursor.rest = spaces n ++ c :: tail) :
    blockBreaks? none (fuel + 1) 0 cursor = some ([], n, cursor.past (spaces n)) := by
  have behind := Cursor.rest_past rest
  have notSpace : c ≠ ' ' := by
    rintro rfl
    exact absurd solid (by decide)
  have notTab : c ≠ '\t' := by
    rintro rfl
    exact absurd solid (by decide)
  have taken : cursor.rest.takeWhile (· == ' ') = spaces n := by
    rw [rest, takeWhile_spaces]
    simp [notSpace]
  have atColumn : (cursor.past (spaces n)).column = n := by
    rw [Cursor.column_past_spaces, column, Nat.zero_add]
  rw [blockBreaks?]
  simp only [taken, Cursor.advance_eq_past fun _ => isBreak_of_mem_spaces, atColumn]
  simp [Cursor.seesChar, Cursor.sees, behind, notTab, isBreak_of_not_isGap solid]

/-! ### Lines -/

theorem literalLines_append {line : List Char} (unbroken : ∀ c ∈ line, isBreak c = false) (indent : Nat)
    (rest : List Char) :
    literalLines indent false (line ++ rest) = line ++ literalLines indent false rest := by
  induction line with
  | nil => rfl
  | cons c line ih =>
    obtain ⟨first, later⟩ := List.forall_mem_cons.mp unbroken
    rw [List.cons_append, literalLines, first, ih later]
    simp [spaces]

theorem literalLines_breaks {c : Char} {breaks : List Char} (broken : ∀ d ∈ c :: breaks, isBreak d = true)
    (indent : Nat) (lineStart : Bool) (rest : List Char) :
    literalLines indent lineStart (c :: breaks ++ rest) = c :: breaks ++ literalLines indent true rest := by
  induction breaks generalizing c lineStart with
  | nil =>
    rw [List.singleton_append, literalLines, if_pos (broken c List.mem_cons_self)]
    rfl
  | cons d breaks ih =>
    obtain ⟨first, later⟩ := List.forall_mem_cons.mp broken
    rw [List.cons_append, literalLines, if_pos first, ih later]
    rfl

theorem literalLines_cons {c : Char} (unbroken : isBreak c = false) (indent : Nat) (rest : List Char) :
    literalLines indent false (c :: rest) = c :: literalLines indent false rest := by
  rw [literalLines, if_neg (by simp [unbroken])]
  rfl

theorem literalLines_lineStart {c : Char} (unbroken : isBreak c = false) (indent : Nat) (rest : List Char) :
    literalLines indent true (c :: rest) = spaces indent ++ literalLines indent false (c :: rest) := by
  rw [literalLines, literalLines, unbroken]
  simp [spaces]

theorem length_le_literalLines (indent : Nat) (lineStart : Bool) (cs : List Char) :
    cs.length ≤ (literalLines indent lineStart cs).length := by
  induction cs generalizing lineStart with
  | nil => exact Nat.zero_le _
  | cons c cs ih =>
    rw [literalLines]
    split
    · have later := ih true
      simpa using later
    · have later := ih false
      simp
      omega

/-- A text up to the line breaks at its end, the first of these, and the others. A text without any is
given one by what follows. -/
inductive Trailing : List Char → List Char → List Char → List Char → Prop
  | unbroken {body : List Char} (ends : ∀ c ∈ body.getLast?, isBreak c = false) : Trailing body body ['\n'] []
  | broken {body : List Char} {c : Char} {more : List Char} (ends : ∀ c ∈ body.getLast?, isBreak c = false)
      (breaks : ∀ d ∈ c :: more, isBreak d = true) : Trailing (body ++ c :: more) body [c] more

/-- What ends the last line of a text if it has not ended yet. -/
def lineEnd (cs : List Char) : List Char :=
  if cs.getLast?.any isBreak then [] else ['\n']

theorem lineEnd_of_ne_nil (first : List Char) {rest : List Char} (nonempty : rest ≠ []) :
    lineEnd (first ++ rest) = lineEnd rest := by
  rw [lineEnd, lineEnd, List.getLast?_append, List.getLast?_eq_some_getLast nonempty, Option.some_or]

theorem lineEnd_breaks {c : Char} {breaks : List Char} (broken : ∀ d ∈ c :: breaks, isBreak d = true) :
    lineEnd (c :: breaks) = [] := by
  have last := broken _ (List.getLast_mem (List.cons_ne_nil c breaks))
  rw [lineEnd, List.getLast?_eq_some_getLast (List.cons_ne_nil c breaks), Option.any_some, if_pos last]

theorem exists_lineEnd (cs : List Char) : ∃ init c, cs ++ lineEnd cs = init ++ [c] ∧ isBreak c = true := by
  cases ended : cs.getLast?.any isBreak with
  | false => exact ⟨cs, '\n', by simp [lineEnd, ended], by decide⟩
  | true =>
    obtain ⟨c, last, broken⟩ := (Option.any_eq_true _ _).mp ended
    obtain ⟨init, rfl⟩ := List.getLast?_eq_some_iff.mp last
    exact ⟨init, c, by simp [lineEnd, broken], broken⟩

theorem lineEnd_literalLines (nonempty : cs ≠ []) (lineStart : Bool) :
    lineEnd (literalLines indent lineStart cs) = lineEnd cs := by
  induction cs generalizing lineStart with
  | nil => exact absurd rfl nonempty
  | cons c cs ih =>
    have same : lineEnd (c :: literalLines indent (isBreak c) cs) = lineEnd (c :: cs) := by
      cases cs with
      | nil => rfl
      | cons d cs =>
        have lines : literalLines indent (isBreak c) (d :: cs) ≠ [] := by
          have length := length_le_literalLines indent (isBreak c) (d :: cs)
          exact List.ne_nil_of_length_pos (Nat.lt_of_lt_of_le (Nat.succ_pos _) length)
        have later := ih (List.cons_ne_nil d cs) (isBreak c)
        exact (lineEnd_of_ne_nil [c] lines).trans
          (later.trans (lineEnd_of_ne_nil [c] (List.cons_ne_nil d cs)).symm)
    rw [literalLines]
    split
    · rename_i broken
      rwa [broken] at same
    · rename_i unbroken
      rw [Bool.not_eq_true] at unbroken
      rw [unbroken] at same
      rw [lineEnd_of_ne_nil _ (List.cons_ne_nil _ _), same]

theorem Trailing.ne_nil {body last more : List Char} (trailing : Trailing cs body last more)
    (first : ∀ c ∈ cs.head?, isBreak c = false) (nonempty : cs ≠ []) : body ≠ [] := by
  cases trailing with
  | unbroken => exact nonempty
  | @broken body c more _ breaks =>
    rintro rfl
    have solid := first c rfl
    rw [breaks c List.mem_cons_self] at solid
    cases solid

theorem Trailing.prepend {body last more : List Char} (trailing : Trailing cs body last more)
    (nonempty : body ≠ []) (front : List Char) : Trailing (front ++ cs) (front ++ body) last more := by
  have same : (front ++ body).getLast? = body.getLast? := by
    rw [List.getLast?_append, List.getLast?_eq_some_getLast nonempty, Option.some_or]
  cases trailing with
  | unbroken ends =>
    rw [← same] at ends
    exact .unbroken ends
  | broken ends breaks =>
    rw [← same] at ends
    rw [← List.append_assoc]
    exact .broken ends breaks

/-- Behind several line breaks only the last of them counts. -/
theorem column_past_breaks {c : Char} (broken : ∀ d ∈ c :: breaks, isBreak d = true) (cursor : Cursor)
    (before : List Char) (n : Nat) : (cursor.past (before ++ (c :: breaks ++ spaces n))).column = n := by
  obtain ⟨init, b, same⟩ := (List.eq_nil_or_concat (c :: breaks)).resolve_left (by simp)
  rw [List.concat_eq_append] at same
  have last : isBreak b = true := broken b (by simp [same])
  rw [same, List.append_assoc, ← List.append_assoc]
  exact Cursor.column_past_indentation last cursor (before ++ init) n

theorem column_past_lineStart (broken : ∀ d ∈ breaks, isBreak d = true) (column : cursor.column = 0) (n : Nat) :
    (cursor.past (breaks ++ spaces n)).column = n := by
  cases breaks with
  | nil => rw [List.nil_append, Cursor.column_past_spaces, column, Nat.zero_add]
  | cons c more => exact column_past_breaks broken cursor [] n

theorem blockLines?_succ {b : Char} (unbroken : ∀ c ∈ line, isBreak c = false)
    (kept : ∀ c ∈ b :: breaks, isBreak c = true ∧ isPrintable c = true) (start : LineStart indent n tail)
    (column : cursor.column = indent) (rest : cursor.rest = line ++ (b :: breaks ++ (spaces n ++ tail)))
    (lastBreak emptyLines : List Char) (blank : Bool) :
    blockLines? false indent (fuel + 1) lastBreak emptyLines blank cursor =
      (blockLines? false indent fuel [b] breaks (cursor.sees isBlank)
        (cursor.past (line ++ (b :: breaks ++ spaces n)))).map fun (text, outcome) =>
          (lastBreak ++ emptyLines ++ line ++ text, outcome) := by
  obtain ⟨⟨broken, printable⟩, later⟩ := List.forall_mem_cons.mp kept
  have spanned : cursor.spanWhile (!isBreak ·) = (line, cursor.past line) :=
    Cursor.spanWhile_eq_past rest (fun c member => by simp [unbroken c member]) (by simp [broken]) unbroken
  have atBreak := Cursor.rest_past rest
  have taken := Cursor.takeBreak_eq_past atBreak broken printable
  have behind : ((cursor.past line).past [b]).rest = breaks ++ (spaces n ++ tail) := Cursor.rest_past atBreak
  have column' : ((cursor.past line).past [b]).column = 0 :=
    Cursor.column_past_break broken (List.forall_mem_nil _)
  have enough : breaks.length < ((cursor.past line).past [b]).rest.length + 1 := by
    rw [behind, List.length_append]
    omega
  obtain ⟨widest, read⟩ := blockBreaks?_lines 0 later start column' behind enough
  have going : (cursor.column == indent && !cursor.atEnd) = true := by
    simp [column, Cursor.atEnd, rest]
  have moved : ((cursor.past line).past [b]).past (breaks ++ spaces n) =
      cursor.past (line ++ (b :: breaks ++ spaces n)) := by
    simp only [← Cursor.past_append, List.append_assoc, List.cons_append, List.nil_append]
  rw [blockLines?, if_pos going]
  simp only [spanned, taken, read, moved, lineJoin, Bool.false_and, Bool.false_eq_true, if_false]

theorem blockLines?_stop (outside : cursor.column ≠ indent) (lastBreak emptyLines : List Char)
    (blank : Bool) :
    blockLines? false indent fuel lastBreak emptyLines blank cursor =
      some ([], lastBreak, emptyLines, cursor) := by
  cases fuel with
  | zero => rfl
  | succ fuel => simp [blockLines?, outside]

/-- The last line of the scalar, behind whose line breaks the indentation is another one. -/
theorem blockLines?_lastLine {b : Char} (unbroken : ∀ c ∈ line, isBreak c = false)
    (kept : ∀ c ∈ b :: breaks, isBreak c = true ∧ isPrintable c = true) (outside : n < indent)
    (begun : ∀ c ∈ next.head?, isGap c = false) (column : cursor.column = indent)
    (rest : cursor.rest = line ++ (b :: breaks ++ (spaces n ++ next))) (lastBreak emptyLines : List Char)
    (blank : Bool) :
    blockLines? false indent (fuel + 1) lastBreak emptyLines blank cursor =
      some (lastBreak ++ emptyLines ++ line, [b], breaks, cursor.past (line ++ (b :: breaks ++ spaces n))) := by
  have column' : (cursor.past (line ++ (b :: breaks ++ spaces n))).column ≠ indent := by
    rw [column_past_breaks fun c member => (kept c member).1]
    exact Nat.ne_of_lt outside
  rw [blockLines?_succ unbroken kept (.inr ⟨outside, begun⟩) column rest, blockLines?_stop column', Option.map_some]
  exact congrArg (fun text => some (text, _)) (List.append_nil _)

theorem lineEnd_concat {c : Char} (unbroken : isBreak c = false) (word : List Char) :
    lineEnd (word ++ [c]) = ['\n'] := by
  rw [lineEnd, List.getLast?_concat, Option.any_some, unbroken]
  rfl

theorem lineEnd_unbroken {word : List Char} (nonempty : word ≠ []) (unbroken : ∀ c ∈ word, isBreak c = false) :
    lineEnd word = ['\n'] := by
  obtain ⟨init, c, same⟩ := (List.eq_nil_or_concat word).resolve_left nonempty
  rw [List.concat_eq_append] at same
  rw [same]
  exact lineEnd_concat (unbroken c (by simp [same])) init

theorem literalLines_unbroken {word : List Char} (unbroken : ∀ c ∈ word, isBreak c = false) (indent : Nat) :
    literalLines indent false word = word := by
  have lines := literalLines_append unbroken indent []
  rwa [List.append_nil, literalLines, List.append_nil] at lines

/-- The lines are read as they were written, up to what follows with another indentation. -/
theorem blockLines?_text (first : ∀ c ∈ cs.head?, isBreak c = false) (nonempty : cs ≠ [])
    (printable : ∀ c ∈ cs, isPrintable c = true) (outside : n < indent)
    (begun : ∀ c ∈ next.head?, isGap c = false) (column : cursor.column = indent)
    (rest : cursor.rest = literalLines indent false cs ++ lineEnd cs ++ (spaces n ++ next))
    (enough : cs.length < fuel) (lastBreak emptyLines : List Char) (blank : Bool) :
    ∃ body last more, Trailing cs body last more ∧
      blockLines? false indent fuel lastBreak emptyLines blank cursor =
        some (lastBreak ++ emptyLines ++ body, last, more,
          cursor.past (literalLines indent false cs ++ lineEnd cs ++ spaces n)) := by
  induction cs using runs_induction isBreak generalizing cursor fuel lastBreak emptyLines blank with
  | last word unbroken =>
    obtain ⟨fuel, rfl⟩ := Nat.exists_eq_succ_of_ne_zero (Nat.ne_zero_of_lt enough)
    rw [literalLines_unbroken unbroken, lineEnd_unbroken nonempty unbroken, List.append_assoc] at rest ⊢
    refine ⟨word, ['\n'], [], .unbroken fun c member => unbroken c (List.mem_of_getLast? member), ?_⟩
    exact blockLines?_lastLine unbroken (List.forall_mem_singleton.mpr ⟨rfl, rfl⟩) outside begun column rest _ _ _
  | more word c gap later unbroken broken stop ih =>
    obtain ⟨fuel, rfl⟩ := Nat.exists_eq_succ_of_ne_zero (Nat.ne_zero_of_lt enough)
    have kept : ∀ d ∈ c :: gap, isBreak d = true ∧ isPrintable d = true := fun d member =>
      ⟨broken d member, printable d (by simp only [List.mem_append]; exact .inl (.inr member))⟩
    rw [List.append_assoc word, literalLines_append unbroken, literalLines_breaks broken] at rest ⊢
    cases later with
    | nil =>
      have ended : lineEnd (word ++ (c :: gap ++ [])) = [] := by
        rw [List.append_nil, lineEnd_of_ne_nil _ (by simp), lineEnd_breaks broken]
      rw [literalLines, ended, List.append_nil, List.append_nil, List.append_assoc] at rest ⊢
      refine ⟨word, [c], gap, .broken (fun c member => unbroken c (List.mem_of_getLast? member)) broken, ?_⟩
      exact blockLines?_lastLine unbroken kept outside begun column rest _ _ _
    | cons d later =>
      have solid : isBreak d = false := stop d rfl
      have ended : lineEnd (word ++ (c :: gap ++ d :: later)) = lineEnd (d :: later) := by
        rw [← List.append_assoc, lineEnd_of_ne_nil _ (by simp)]
      rw [literalLines_lineStart solid, ended] at rest ⊢
      have line : cursor.rest = word ++ (c :: gap ++ (spaces indent ++
          (literalLines indent false (d :: later) ++ lineEnd (d :: later) ++ (spaces n ++ next)))) := by
        simpa only [List.append_assoc] using rest
      have startLine : LineStart indent indent
          (literalLines indent false (d :: later) ++ lineEnd (d :: later) ++ (spaces n ++ next)) := by
        rw [literalLines_cons solid]
        exact .inl ⟨rfl, d, _, rfl, solid⟩
      have there : cursor.rest = (word ++ (c :: gap ++ spaces indent)) ++
          (literalLines indent false (d :: later) ++ lineEnd (d :: later) ++ (spaces n ++ next)) := by
        simpa only [List.append_assoc] using rest
      have printable' : ∀ c ∈ d :: later, isPrintable c = true := fun c member =>
        printable c (List.mem_append_right _ member)
      have enough' : (d :: later).length < fuel := by
        simp at enough ⊢
        omega
      obtain ⟨body, last, more, trailing, read⟩ := ih stop (by simp) printable'
        (column_past_breaks broken cursor word indent) (Cursor.rest_past there) enough' [c] gap (cursor.sees isBlank)
      refine ⟨word ++ (c :: gap ++ body), last, more, ?_, ?_⟩
      · rw [← List.append_assoc, ← List.append_assoc]
        exact trailing.prepend (trailing.ne_nil stop (by simp)) _
      · rw [blockLines?_succ unbroken kept startLine column line, read, Option.map_some,
          ← Cursor.past_append]
        simp

/-! ### Headers -/

def chompingMark : Chomping → List Char
  | .strip => ['-']
  | .clip => []
  | .keep => ['+']

/-- What the writer has to say about the line breaks at the end. -/
def chompingOf (cs : List Char) : Chomping :=
  match cs.reverse with
  | [] => .strip
  | [c] => if isBreak c then .keep else .strip
  | c :: d :: _ => if !isBreak c then .strip else if isBreak d then .keep else .clip

/-- What of the line breaks at the end counts. -/
def Chomping.kept (last more : List Char) : Chomping → List Char
  | strip => []
  | clip => last
  | keep => last ++ more

/-- The first line would not show the indentation. -/
def needsIncrement (cs : List Char) : Bool :=
  cs.head?.any fun c => isSpace c || isBreak c

theorem literalHeader_eq (cs : List Char) :
    literalHeader cs = (if needsIncrement cs then ['2'] else []) ++ chompingMark (chompingOf cs) := by
  rw [literalHeader, chompingOf, needsIncrement]
  congr 1
  generalize cs.reverse = reversed
  match reversed with
  | [] => rfl
  | [c] =>
    dsimp only
    split <;> rfl
  | c :: d :: _ =>
    dsimp only
    split
    · rfl
    · split <;> rfl

theorem chompingOf_breaks {c : Char} {more : List Char} (broken : ∀ d ∈ c :: more, isBreak d = true) :
    chompingOf (c :: more) = .keep := by
  have reversed : ∀ d ∈ (c :: more).reverse, isBreak d = true := fun d member =>
    broken d (List.mem_reverse.mp member)
  rw [chompingOf]
  split
  · rename_i same
    simp at same
  · rename_i d same
    rw [if_pos (reversed d (by simp [same]))]
  · rename_i d e rest same
    have first := reversed d (by simp [same])
    have second := reversed e (by simp [same])
    rw [first, second]
    rfl

theorem Trailing.chomped {body last more : List Char} (trailing : Trailing cs body last more)
    (nonempty : body ≠ []) : body ++ (chompingOf cs).kept last more = cs := by
  obtain ⟨init, e, same⟩ := (List.eq_nil_or_concat body).resolve_left nonempty
  rw [List.concat_eq_append] at same
  cases trailing with
  | unbroken ends =>
    have solid : isBreak e = false := ends e (by simp [same])
    have strip : chompingOf cs = .strip := by
      rw [same, chompingOf, List.reverse_append]
      cases init.reverse <;> simp [solid]
    rw [strip, Chomping.kept, List.append_nil]
  | @broken body c more ends breaks =>
    have solid : isBreak e = false := ends e (by simp [same])
    cases more with
    | nil =>
      have clip : chompingOf (body ++ [c]) = .clip := by
        rw [same, chompingOf]
        simp [breaks c List.mem_cons_self, solid]
      rw [clip]
      rfl
    | cons m more =>
      have keep : chompingOf (body ++ c :: m :: more) = .keep := by
        have reversed : ∀ d ∈ (c :: m :: more).reverse, isBreak d = true := fun d member =>
          breaks d (List.mem_reverse.mp member)
        rw [chompingOf, List.reverse_append]
        match h : (c :: m :: more).reverse with
        | [] | [_] => simpa using congrArg List.length h
        | d :: e :: rest =>
          rw [h] at reversed
          have first := reversed d List.mem_cons_self
          have second := reversed e (by simp)
          simp [first, second]
      rw [keep]
      rfl

theorem blockHeader?_literal (digit : Bool) (chomping : Chomping)
    (rest : cursor.rest = (if digit then ['2'] else []) ++ chompingMark chomping ++ '\n' :: tail) :
    blockHeader? cursor = some (⟨chomping, if digit then some 2 else none⟩,
      cursor.past ((if digit then ['2'] else []) ++ chompingMark chomping)) := by
  have unbroken : ∀ c ∈ (if digit then ['2'] else []) ++ chompingMark chomping, isBreak c = false := by
    cases digit <;> cases chomping <;> simp [chompingMark] <;> decide
  rw [← Cursor.advance_eq_past unbroken]
  cases digit <;> cases chomping <;> rw [blockHeader?, rest] <;> rfl

theorem finishLine?_break (rest : cursor.rest = '\n' :: tail) :
    cursor.finishLine? = some (cursor.past ['\n']) := by
  have spanned : cursor.skipWhile isBlank = cursor := by
    refine Cursor.skipWhile_eq_self ?_
    rw [rest]
    rintro _ ⟨⟩
    decide
  have stays : cursor.skipComment = cursor := by
    simp [Cursor.skipComment, spanned, Cursor.seesChar, rest]
  have broken : cursor.sees isBreak = true := by
    rw [Cursor.sees, rest]
    rfl
  rw [Cursor.finishLine?, stays, broken, Bool.or_true, if_pos rfl,
    Cursor.takeBreak_eq_past rest (by decide) (by decide)]

/-! ### The scalar -/

theorem blockScalar?_of_lines {parent widest : Nat} {emptyLines body last more : List Char} {after final : Cursor}
    (rest : cursor.rest = '|' :: literalHeader cs ++ '\n' :: tail)
    (read : blockBreaks? (if needsIncrement cs then some (parent + 2) else none)
      ((cursor.past ('|' :: literalHeader cs ++ ['\n'])).rest.length + 1) 0
      (cursor.past ('|' :: literalHeader cs ++ ['\n'])) = some (emptyLines, widest, after))
    (width : needsIncrement cs = false → widest = parent + 2)
    (lines : blockLines? false (parent + 2) (after.rest.length + 1) [] emptyLines false after =
      some (body, last, more, final)) :
    blockScalar? false parent cursor = some (body ++ (chompingOf cs).kept last more, final) := by
  have inside : (cursor.advance 1).rest = literalHeader cs ++ '\n' :: tail := congrArg (List.drop 1) rest
  have behind := Cursor.rest_past inside
  rw [literalHeader_eq] at inside
  have moved : ((cursor.advance 1).past (literalHeader cs)).past ['\n'] =
      cursor.past ('|' :: literalHeader cs ++ ['\n']) := by
    rw [← Cursor.past_append, List.cons_append, Cursor.past_unbroken (by decide)]
  rw [blockScalar?, blockHeader?_literal _ _ inside, ← literalHeader_eq]
  have given : (if needsIncrement cs then some 2 else none).map
      (fun increment => (max (parent : Int) 0).toNat + increment) =
      if needsIncrement cs then some (parent + 2) else none := by
    cases needsIncrement cs with
    | false => rfl
    | true => simp
  have indented : (if needsIncrement cs then some (parent + 2) else none).getD
      (max widest (max ((parent : Int) + 1).toNat 1)) = parent + 2 := by
    cases digit : needsIncrement cs with
    | false =>
      simp [width digit]
    | true => rfl
  simp only [Option.bind_eq_bind, Option.bind_some, finishLine?_break behind, moved, given, read, indented,
    lines]
  cases chompingOf cs <;> rfl

/-- Nothing but line breaks. -/
theorem blockScalar?_breaks {parent n : Nat} {c : Char} {more : List Char}
    (broken : ∀ d ∈ c :: more, isBreak d = true) (printable : ∀ d ∈ c :: more, isPrintable d = true)
    (outside : n ≤ parent) (begun : ∀ c ∈ next.head?, isGap c = false)
    (rest : cursor.rest = '|' :: literalHeader (c :: more) ++ '\n' :: (c :: more ++ (spaces n ++ next))) :
    blockScalar? false parent cursor = some (c :: more,
      cursor.past ('|' :: literalHeader (c :: more) ++ ['\n'] ++ (c :: more ++ spaces n))) := by
  have start : LineStart (parent + 2) n next := .inr ⟨by omega, begun⟩
  have kept : ∀ d ∈ c :: more, isBreak d = true ∧ isPrintable d = true := fun d member =>
    ⟨broken d member, printable d member⟩
  have digit : needsIncrement (c :: more) = true := by
    simp [needsIncrement, broken c List.mem_cons_self]
  have there : cursor.rest = ('|' :: literalHeader (c :: more) ++ ['\n']) ++ (c :: more ++ (spaces n ++ next)) := by
    simpa using rest
  have behind := Cursor.rest_past there
  have enough : (c :: more).length <
      (cursor.past ('|' :: literalHeader (c :: more) ++ ['\n'])).rest.length + 1 := by
    rw [behind, List.length_append]
    omega
  have column : (cursor.past ('|' :: literalHeader (c :: more) ++ ['\n'])).column = 0 := by
    rw [Cursor.past_append, Cursor.column_past_break (by decide) (List.forall_mem_nil _)]
    rfl
  obtain ⟨widest, read⟩ := blockBreaks?_lines 0 kept start column behind enough
  have column' : ((cursor.past ('|' :: literalHeader (c :: more) ++ ['\n'])).past
      (c :: more ++ spaces n)).column ≠ parent + 2 := by
    rw [column_past_lineStart broken column]
    omega
  have width : needsIncrement (c :: more) = false → widest = parent + 2 := by simp [digit]
  rw [blockScalar?_of_lines rest (by rw [if_pos digit]; exact read) width (blockLines?_stop column' _ _ _),
    chompingOf_breaks broken, Cursor.past_append _ (_ ++ _)]
  rfl

theorem literalLines_text {breaks : List Char} {d : Char} (broken : ∀ c ∈ breaks, isBreak c = true)
    (solid : isBreak d = false) (indent : Nat) (later : List Char) :
    literalLines indent true (breaks ++ d :: later) =
      breaks ++ spaces indent ++ literalLines indent false (d :: later) := by
  cases breaks with
  | nil => exact literalLines_lineStart solid indent later
  | cons c more =>
    rw [literalLines_breaks broken, literalLines_lineStart solid, List.append_assoc]

/-- The start of a text that has other lines than empty ones. -/
theorem blockBreaks?_text (parent : Nat) {breaks later : List Char} {d : Char}
    (broken : ∀ c ∈ breaks, isBreak c = true) (solid : isBreak d = false)
    (printable : ∀ c ∈ breaks ++ d :: later, isPrintable c = true) (column : cursor.column = 0)
    (rest : cursor.rest = breaks ++ (spaces (parent + 2) ++ d :: tail)) :
    ∃ widest, blockBreaks? (if needsIncrement (breaks ++ d :: later) then some (parent + 2) else none)
        (cursor.rest.length + 1) 0 cursor =
          some (breaks, widest, cursor.past (breaks ++ spaces (parent + 2))) ∧
      (needsIncrement (breaks ++ d :: later) = false → widest = parent + 2) := by
  cases digit : needsIncrement (breaks ++ d :: later) with
  | true =>
    have kept : ∀ c ∈ breaks, isBreak c = true ∧ isPrintable c = true := fun c member =>
      ⟨broken c member, printable c (List.mem_append_left _ member)⟩
    have start : LineStart (parent + 2) (parent + 2) (d :: tail) := .inl ⟨rfl, d, tail, rfl, solid⟩
    have enough : breaks.length < cursor.rest.length + 1 := by
      rw [rest, List.length_append]
      omega
    obtain ⟨widest, read⟩ := blockBreaks?_lines 0 kept start column rest enough
    exact ⟨widest, by rw [if_pos rfl]; exact read, by simp⟩
  | false =>
    cases breaks with
    | cons c more => simp [needsIncrement, broken c List.mem_cons_self] at digit
    | nil =>
      have space : d ≠ ' ' := by
        rintro rfl
        simp [needsIncrement, isSpace] at digit
      have gap : isGap d = false := by
        refine Bool.eq_false_iff.mpr fun gap => ?_
        rcases eq_space_or_isBreak (printable d List.mem_cons_self) gap with same | same
        · exact space same
        · rw [same] at solid
          cases solid
      exact ⟨parent + 2, blockBreaks?_first gap column rest, fun _ => rfl⟩

theorem blockScalar?_literal {parent n : Nat} {cs next : List Char} (nonempty : cs ≠ [])
    (printable : ∀ c ∈ cs, isPrintable c = true) (outside : n ≤ parent)
    (begun : ∀ c ∈ next.head?, isGap c = false)
    (rest : cursor.rest = '|' :: literalHeader cs ++
      '\n' :: (literalLines (parent + 2) true cs ++ lineEnd cs ++ (spaces n ++ next))) :
    blockScalar? false parent cursor = some (cs, cursor.past ('|' :: literalHeader cs ++
      '\n' :: (literalLines (parent + 2) true cs ++ lineEnd cs ++ spaces n))) := by
  obtain ⟨breaks, later, rfl, broken, stop⟩ := exists_span isBreak cs
  cases later with
  | nil =>
    rw [List.append_nil] at nonempty printable rest ⊢
    obtain ⟨c, more, rfl⟩ := List.exists_cons_of_ne_nil nonempty
    have written : literalLines (parent + 2) true (c :: more) ++ lineEnd (c :: more) = c :: more := by
      have lines := literalLines_breaks broken (parent + 2) true []
      rw [List.append_nil, literalLines, List.append_nil] at lines
      rw [lines, lineEnd_breaks broken, List.append_nil]
    rw [written] at rest ⊢
    rw [blockScalar?_breaks broken printable outside begun rest]
    simp
  | cons d later =>
    have solid : isBreak d = false := stop d rfl
    have ended : lineEnd (breaks ++ d :: later) = lineEnd (d :: later) := lineEnd_of_ne_nil _ (by simp)
    rw [literalLines_text broken solid, ended] at rest ⊢
    have there : cursor.rest = ('|' :: literalHeader (breaks ++ d :: later) ++ ['\n']) ++
        (breaks ++ (spaces (parent + 2) ++ (literalLines (parent + 2) false (d :: later) ++
          lineEnd (d :: later) ++ (spaces n ++ next)))) := by
      simpa using rest
    have behind := Cursor.rest_past there
    have column : (cursor.past ('|' :: literalHeader (breaks ++ d :: later) ++ ['\n'])).column = 0 := by
      rw [Cursor.past_append, Cursor.column_past_break (by decide) (List.forall_mem_nil _)]
      rfl
    obtain ⟨widest, read, width⟩ := blockBreaks?_text parent broken solid printable column
      (by rw [behind, literalLines_cons solid]; rfl)
    have atLines := Cursor.rest_past ((List.append_assoc breaks _ _).symm ▸ behind)
    have column' := column_past_lineStart broken column (parent + 2)
    have printable' : ∀ c ∈ d :: later, isPrintable c = true := fun c member =>
      printable c (List.mem_append_right _ member)
    have inside : n < parent + 2 := by omega
    have enough : (d :: later).length < ((cursor.past ('|' :: literalHeader (breaks ++ d :: later) ++ ['\n'])).past
        (breaks ++ spaces (parent + 2))).rest.length + 1 := by
      have lines := length_le_literalLines (parent + 2) false (d :: later)
      rw [atLines, List.length_append, List.length_append]
      omega
    obtain ⟨body, last, more, trailing, lines⟩ := blockLines?_text stop (by simp) printable' inside begun column'
      atLines enough [] breaks false
    have bodyNonempty : body ≠ [] := trailing.ne_nil stop (by simp)
    have whole := trailing.prepend bodyNonempty breaks
    have wholeNonempty : breaks ++ body ≠ [] := List.append_ne_nil_of_right_ne_nil breaks bodyNonempty
    have rest' : cursor.rest = '|' :: literalHeader (breaks ++ d :: later) ++ '\n' :: _ := rest
    rw [blockScalar?_of_lines rest' read width lines, List.nil_append, whole.chomped wholeNonempty,
      ← Cursor.past_append, ← Cursor.past_append]
    simp

end DataBind.Yaml
