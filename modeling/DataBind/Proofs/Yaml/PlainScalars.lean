import DataBind.Proofs.Yaml.QuotedTexts

/-!
# Plain scalars read back

A plain text ends before the colon of a key or at the end of its line. The words of it are kept together
by the spaces between them, and none of them looks like a comment or like the end of a key.
-/

namespace DataBind.Yaml

/-- What stands behind a plain text, what of it goes with the text, and whether that is a line break. -/
inductive PlainStop (indent : Nat) : List Char → List Char → Bool → Prop
  | colon {d : Char} {rest : List Char} (gap : isGap d = true) :
      PlainStop indent (':' :: d :: rest) [] false
  | line {n : Nat} {next : List Char} (outside : n < indent)
      (begun : ∀ c ∈ next.head?, isGap c = false) :
      PlainStop indent ('\n' :: spaces n ++ next) ('\n' :: spaces n) true

/-- A plain text without a look at the place where it begins. -/
structure PlainText (text : List Char) : Prop where
  nonempty : text ≠ []
  classes : ∀ c ∈ text, c = ' ' ∨ isGap c = false
  begins : ∀ c ∈ text.head?, c ≠ ' ' ∧ c ≠ '#'
  ends : text.getLast? ≠ some ' '
  free : hasSeparator text = false

variable {indent fuel : Nat} {gap : Gap} {cursor : Cursor} {text word tail consumed : List Char} {broken : Bool}

theorem plainWord?_word (solid : ∀ c ∈ word, isGap c = false) (last : word.getLast? ≠ some ':')
    (stop : (∃ d rest, tail = d :: rest ∧ isGap d = true) ∨
      ∃ d rest, tail = ':' :: d :: rest ∧ isGap d = true) :
    plainWord? false (word ++ tail) = some word := by
  induction word with
  | nil =>
    rcases stop with ⟨d, rest, rfl, gap⟩ | ⟨d, rest, rfl, gap⟩
    · simp [plainWord?, gap]
    · have colon : isGap ':' = false := by decide
      simp [plainWord?, gap, colon]
  | cons c word ih =>
    obtain ⟨first, later⟩ := List.forall_mem_cons.mp solid
    have goesOn : c = ':' → ∃ d rest, word = d :: rest ∧ isGap d = false := by
      rintro rfl
      cases word with
      | nil => exact absurd rfl last
      | cons d word => exact ⟨d, word, rfl, later d List.mem_cons_self⟩
    have last' : word.getLast? ≠ some ':' := by
      cases word with
      | nil => simp
      | cons d word => simpa using last
    rw [List.cons_append, plainWord?, ih later last']
    by_cases colon : c = ':'
    · obtain ⟨d, rest, rfl, inside⟩ := goesOn colon
      simp [first, inside]
    · simp [first, colon]

theorem PlainStop.read (stop : PlainStop indent tail consumed broken) (rest : cursor.rest = tail) :
    (broken = false ∧ cursor.sees isGap = false ∧ consumed = []) ∨
      (broken = true ∧ cursor.sees isGap = true ∧ (cursor.past consumed).column < indent ∧
        ∃ gap : Gap, gap.broken = true ∧
          Gap.none.read indent (cursor.rest.length + 1) cursor = some (gap, cursor.past consumed)) := by
  cases stop with
  | colon gap =>
    have colon : isGap ':' = false := by decide
    exact .inl ⟨rfl, by simpa [Cursor.sees, rest] using colon, rfl⟩
  | @line n next outside begun =>
    have column : (cursor.past ('\n' :: spaces n)).column = n :=
      Cursor.column_past_indentation (by decide) cursor [] n
    have sees : cursor.sees isGap = true := by
      rw [Cursor.sees, rest]
      rfl
    refine .inr ⟨rfl, sees, column.symm ▸ outside, ⟨[], true, ['\n'], []⟩, rfl, ?_⟩
    have line : cursor.rest = ['\n'] ++ (spaces n ++ next) := rest
    have behind := Cursor.rest_past line
    have enough : n ≤ cursor.rest.length := by
      simp [rest, spaces]
      omega
    rw [Nat.add_comm]
    exact (Gap.read_breaks line (List.forall_mem_singleton.mpr ⟨rfl, rfl⟩) _).trans
      (Gap.read_indentation rfl behind begun enough)

theorem hasSeparator_of_append {first rest : List Char} (h : hasSeparator (first ++ rest) = false) :
    hasSeparator rest = false := by
  induction first with
  | nil => exact h
  | cons c first ih => exact ih (Bool.or_eq_false_iff.mp h).2

theorem PlainStop.stops (stop : PlainStop indent tail consumed broken) :
    (∃ d rest, tail = d :: rest ∧ isGap d = true) ∨
      ∃ d rest, tail = ':' :: d :: rest ∧ isGap d = true := by
  cases stop with
  | @colon d rest gap => exact .inr ⟨d, rest, rfl, gap⟩
  | @line n next _ _ => exact .inl ⟨'\n', spaces n ++ next, rfl, by decide⟩

/-- One word, up to what is read behind it. -/
theorem plainRest?_succ (solid : ∀ c ∈ word, isGap c = false) (nonempty : word ≠ [])
    (rest : cursor.rest = word ++ tail) (read : plainWord? false (word ++ tail) = some word)
    (unmarked : cursor.seesDocumentMarker = false) (uncommented : word.head? ≠ some '#') (fuel : Nat) :
    plainRest? false indent (fuel + 1) gap cursor =
      if !(cursor.past word).sees isGap then some (gap.text ++ word, false, cursor.past word)
      else match Gap.none.read indent ((cursor.past word).rest.length + 1) (cursor.past word) with
        | none => none
        | some (gap', cursor) =>
          if cursor.column < indent then some (gap.text ++ word, gap'.broken, cursor)
          else (plainRest? false indent fuel gap' cursor).map fun (tail, outcome) =>
            (gap.text ++ word ++ tail, outcome) := by
  have noComment : cursor.seesChar '#' = false := by
    obtain ⟨c, cs, rfl⟩ := List.exists_cons_of_ne_nil nonempty
    simpa [Cursor.seesChar, rest] using uncommented
  rw [plainRest?, unmarked, noComment, rest, read]
  simp only [Bool.or_self, Bool.false_eq_true, if_false, nonempty, Bool.not_false, Bool.true_and,
    decide_eq_true_eq, Cursor.advance_eq_past fun c member => isBreak_of_not_isGap (solid c member)]
  rfl

/-- The first word of a plain text, before some spaces and the rest of it. -/
structure PlainWord (word : List Char) : Prop where
  nonempty : word ≠ []
  solid : ∀ c ∈ word, isGap c = false
  last : word.getLast? ≠ some ':'
  uncommented : word.head? ≠ some '#'

theorem PlainText.plainWord (plain : PlainText word) (outside : ∀ c ∈ word, isSpace c = false) :
    PlainWord word := by
  refine ⟨plain.nonempty, fun c member => ?_, ?_, fun hash => (plain.begins '#' hash).2 rfl⟩
  · exact (plain.classes c member).resolve_left fun space => by simpa [isSpace, space] using outside c member
  · intro colon
    obtain ⟨init, rfl⟩ := List.getLast?_eq_some_iff.mp colon
    exact absurd (hasSeparator_of_append plain.free) (by decide)

theorem PlainText.split {n : Nat} {later : List Char} (plain : PlainText (word ++ spaces (n + 1) ++ later))
    (outside : ∀ c ∈ word, isSpace c = false) (stop : ∀ c ∈ later.head?, isSpace c = false) :
    PlainWord word ∧ PlainText later := by
  obtain ⟨-, classes, begins, ends, free⟩ := plain
  simp only [List.forall_mem_append] at classes
  have head : ∀ c ∈ later.head?, c ≠ ' ' := fun c member space => by
    simpa [isSpace, space] using stop c member
  have nonempty : later ≠ [] := by
    rintro rfl
    rw [List.append_nil, spaces, List.replicate_succ', ← List.append_assoc, List.getLast?_concat] at ends
    exact ends rfl
  have wordNonempty : word ≠ [] := by
    rintro rfl
    exact (begins ' ' rfl).1 rfl
  constructor
  · refine ⟨wordNonempty, fun c member => ?_, ?_, ?_⟩
    · exact (classes.1.1 c member).resolve_left fun space => by simpa [isSpace, space] using outside c member
    · intro colon
      obtain ⟨init, rfl⟩ := List.getLast?_eq_some_iff.mp colon
      rw [List.append_assoc, List.append_assoc] at free
      have gapped := (Bool.or_eq_false_iff.mp (Bool.or_eq_false_iff.mp (hasSeparator_of_append free)).1).1
      simp [beginsWithGap, spaces_succ] at gapped
      revert gapped
      decide
    · intro hash
      obtain ⟨c, cs, rfl⟩ := List.exists_cons_of_ne_nil wordNonempty
      exact (begins c rfl).2 (Option.some.inj hash)
  · refine ⟨nonempty, classes.2, fun c member => ⟨head c member, ?_⟩, ?_, hasSeparator_of_append free⟩
    · rintro rfl
      rw [spaces, List.replicate_succ', ← List.append_assoc, List.append_assoc] at free
      have comment := (Bool.or_eq_false_iff.mp (Bool.or_eq_false_iff.mp (hasSeparator_of_append free)).1).2
      obtain ⟨later, rfl⟩ := List.head?_eq_some_iff.mp member
      revert comment
      simp
      decide
    · rwa [List.getLast?_append, List.getLast?_eq_some_getLast nonempty, Option.some_or,
        ← List.getLast?_eq_some_getLast nonempty] at ends

theorem plainRest?_text (plain : PlainText text) (stop : PlainStop indent tail consumed broken)
    (rest : cursor.rest = text ++ tail) (inside : indent ≤ cursor.column + 1)
    (unmarked : cursor.seesDocumentMarker = false) (enough : text.length < fuel) :
    plainRest? false indent fuel gap cursor =
      some (gap.text ++ text, broken, cursor.past (text ++ consumed)) := by
  induction text using runs_induction isSpace generalizing cursor fuel gap with
  | last word outside =>
    obtain ⟨nonempty, solid, last, uncommented⟩ := plain.plainWord outside
    obtain ⟨fuel, rfl⟩ := Nat.exists_eq_add_of_lt enough
    have read := plainWord?_word solid last stop.stops
    have behind := Cursor.rest_past rest
    rw [plainRest?_succ solid nonempty rest read unmarked uncommented]
    rcases stop.read behind with ⟨rfl, blind, rfl⟩ | ⟨rfl, sees, column, gap', broken, gapRead⟩
    · simp [blind]
    · simp [sees, gapRead, column, broken, Cursor.past_append]
  | more word c blanks later outside inside' stop' ih =>
    obtain ⟨n, blank⟩ : ∃ n, c :: blanks = spaces (n + 1) :=
      ⟨blanks.length, List.eq_replicate_iff.mpr
        ⟨rfl, fun d member => by simpa [isSpace] using inside' d member⟩⟩
    rw [blank] at plain rest enough ⊢
    obtain ⟨⟨nonempty, solid, last, uncommented⟩, plainLater⟩ := plain.split outside stop'
    obtain ⟨fuel, rfl⟩ := Nat.exists_eq_add_of_lt enough
    have rest' : cursor.rest = word ++ (spaces (n + 1) ++ (later ++ tail)) := by
      simpa only [List.append_assoc] using rest
    have solidLater : ∀ d ∈ (later ++ tail).head?, isGap d = false := by
      obtain ⟨d, ds, rfl⟩ := List.exists_cons_of_ne_nil plainLater.nonempty
      have inside := plainLater.classes d List.mem_cons_self
      simpa using inside.resolve_left (plainLater.begins d rfl).1
    have read : plainWord? false (word ++ (spaces (n + 1) ++ (later ++ tail))) = some word :=
      plainWord?_word solid last (.inl ⟨' ', _, rfl, by decide⟩)
    have behind := Cursor.rest_past rest'
    have sees : (cursor.past word).sees isGap = true := by
      rw [Cursor.sees, behind]
      rfl
    have enough' : n + 1 ≤ (cursor.past word).rest.length + 1 := by
      simp [behind, spaces]
      omega
    have gapRead : Gap.none.read indent _ (cursor.past word) = some _ :=
      Gap.read_spaces rfl behind solidLater enough'
    have column : ((cursor.past word).past (spaces (n + 1))).column = cursor.column + word.length + (n + 1) := by
      rw [Cursor.column_past_spaces, Cursor.column_past fun d member => isBreak_of_not_isGap (solid d member)]
    have atLater := Cursor.rest_past behind
    have unmarked' : ((cursor.past word).past (spaces (n + 1))).seesDocumentMarker = false := by
      simp [Cursor.seesDocumentMarker, Cursor.seesMarker, column]
    have inside'' : indent ≤ ((cursor.past word).past (spaces (n + 1))).column + 1 := by omega
    have shorter : later.length < (word ++ spaces (n + 1) ++ later).length + fuel := by
      simp [spaces]
      omega
    rw [plainRest?_succ solid nonempty rest' read unmarked uncommented, sees, gapRead]
    have notOutside : ¬((cursor.past word).past (spaces (n + 1))).column < indent := by omega
    simp only [Bool.not_true, Bool.false_eq_true, if_false, notOutside,
      ih plainLater atLater inside'' unmarked' shorter, Option.map_some, Cursor.past_append]
    simp [Gap.text, Gap.none, List.append_assoc]

theorem plainScalar?_text (plain : PlainText text) (stop : PlainStop indent tail consumed broken)
    (rest : cursor.rest = text ++ tail) (inside : indent ≤ cursor.column + 1)
    (unmarked : cursor.seesDocumentMarker = false) :
    plainScalar? false indent cursor = some (text, broken, cursor.past (text ++ consumed)) := by
  have enough : text.length < cursor.rest.length + 1 := by
    rw [rest, List.length_append]
    omega
  exact plainRest?_text plain stop rest inside unmarked enough

end DataBind.Yaml
