import DataBind.Json.Read
import DataBind.Proofs.JsonObjects

/-!
# Reading back JSON texts

A value of strings, arrays and objects is read back from what either writer puts down, so the text tells the
value. The reader gives a value together with the characters behind it.
-/

namespace DataBind.Json

/-! ### Strings -/

variable {rest after text : List Char}

theorem readString_letter {letter c : Char} (named : unescape? letter = some c)
    (read : readString rest = some (text, after)) :
    readString ('\\' :: letter :: rest) = some (c :: text, after) := by
  have other : letter ≠ 'u' := by
    rintro rfl
    cases named
  rw [readString, named, read]
  · rfl
  · intro _ _ _ _ _ _ _ _ _ same
    exact absurd same other
  · intro _ _ _ _ _ same
    exact absurd same other

theorem readString_raw {c : Char} (quote : c ≠ '"') (backslash : c ≠ '\\') (large : ¬c.toNat < 0x20)
    (read : readString rest = some (text, after)) :
    readString (c :: rest) = some (c :: text, after) := by
  rw [readString, if_neg (by simp [backslash, large]), read]
  · rfl
  · exact quote
  · intro _ _ _ _ _ _ _ _ _ same
    exact absurd same backslash
  · intro _ _ _ _ _ same
    exact absurd same backslash
  · intro _ _ same
    exact absurd same backslash

theorem fourHex?_control {n : Nat} (small : n < 0x20) :
    fourHex? '0' '0' (Text.hexDigit (n / 16)) (Text.hexDigit n) = some n := by
  have each : ∀ m < 0x20, fourHex? '0' '0' (Text.hexDigit (m / 16)) (Text.hexDigit m) = some m := by decide
  exact each n small

/-- After an escape of four digits a second one is looked at, so that has to have digits as well. -/
def Follows (rest : List Char) : Prop :=
  ∀ a b c d more, rest = '\\' :: 'u' :: a :: b :: c :: d :: more → ∃ code, fourHex? a b c d = some code

/-- A control character is no half of a pair. -/
theorem control_outside {n low : Nat} (small : n < 0x20) (far : 0x20 ≤ low) (high : Nat) :
    ¬(decide (low ≤ n) && decide (n < high)) = true := by
  rw [Bool.and_eq_true, decide_eq_true_eq]
  omega

theorem readString_control {n : Nat} (small : n < 0x20) (follows : Follows rest)
    (read : readString rest = some (text, after)) :
    readString ('\\' :: 'u' :: '0' :: '0' :: Text.hexDigit (n / 16) :: Text.hexDigit n :: rest) =
      some (Char.ofNat n :: text, after) := by
  have code := fourHex?_control small
  by_cases second : ∃ a b c d more, rest = '\\' :: 'u' :: a :: b :: c :: d :: more
  · obtain ⟨a, b, c, d, more, rfl⟩ := second
    obtain ⟨low, digits⟩ := follows a b c d more rfl
    have noHigh := control_outside small (by decide : 0x20 ≤ 0xD800) 0xDC00
    have noLow := control_outside small (by decide : 0x20 ≤ 0xDC00) 0xE000
    rw [readString, code, digits]
    simp only [if_neg noHigh, if_neg noLow, read, Option.map_some]
  · have alone := control_outside small (by decide : 0x20 ≤ 0xD800) 0xE000
    rw [readString, code]
    · simp only [if_neg alone, read, Option.map_some]
    · intro a b c d more same
      exact second ⟨a, b, c, d, more, same⟩

/-- The three ways in which a character is written between quotes. -/
inductive EscapedAs (c : Char) : List Char → Prop
  | letter {letter : Char} (named : unescape? letter = some c) : EscapedAs c ['\\', letter]
  | control (small : c.toNat < 0x20) :
      EscapedAs c ['\\', 'u', '0', '0', Text.hexDigit (c.toNat / 16), Text.hexDigit c.toNat]
  | raw (quote : c ≠ '"') (backslash : c ≠ '\\') (large : ¬c.toNat < 0x20) : EscapedAs c [c]

theorem escapedAs_escape (c : Char) : EscapedAs c (escape c) := by
  unfold escape
  split
  case h_8 quote backslash _ _ _ _ _ =>
    split
    · rename_i small
      exact .control small
    · rename_i large
      exact .raw quote backslash large
  all_goals exact .letter rfl

theorem follows_escaped (text rest : List Char) : Follows (text.flatMap escape ++ '"' :: rest) := by
  intro a b c d more same
  cases text with
  | nil => cases same
  | cons first text =>
    have written := escapedAs_escape first
    rw [List.flatMap_cons, List.append_assoc] at same
    generalize escape first = cs at same written
    cases written with
    | letter named =>
      simp only [List.cons_append, List.cons.injEq] at same
      obtain ⟨-, rfl, -⟩ := same
      cases named
    | control small =>
      simp only [List.cons_append, List.cons.injEq] at same
      obtain ⟨-, -, rfl, rfl, rfl, rfl, -⟩ := same
      exact ⟨_, fourHex?_control small⟩
    | raw quote backslash large => exact absurd (List.cons.inj same).1 backslash

/-- What is written between quotes is read up to the closing one. -/
theorem readString_escaped (text rest : List Char) :
    readString (text.flatMap escape ++ '"' :: rest) = some (text, rest) := by
  induction text with
  | nil => rw [List.flatMap_nil, List.nil_append, readString]
  | cons c text ih =>
    have written := escapedAs_escape c
    rw [List.flatMap_cons, List.append_assoc]
    generalize escape c = cs at written ⊢
    cases written with
    | letter named => exact readString_letter named ih
    | control small =>
      have read := readString_control small (follows_escaped text rest) ih
      rw [Char.ofNat_toNat] at read
      exact read
    | raw quote backslash large => exact readString_raw quote backslash large ih

/-! ### Values -/

def IsGap (gap : List Char) : Prop :=
  ∀ c ∈ gap, isSpace c = true

/-- The value is read from the characters, whatever stands behind them. Each step down takes at least one
character, so there is fuel enough if it is more than the characters. -/
def Reads (cs : List Char) (value : Json) : Prop :=
  ∀ fuel rest, cs.length < fuel → readValue fuel (cs ++ rest) = some (value, rest)

/-- The items are read, with the closing bracket. -/
def ReadsItems (cs : List Char) (items : List Json) : Prop :=
  ∀ fuel rest, cs.length < fuel → readItems fuel (cs ++ rest) = some (items, rest)

def ReadsMembers (cs : List Char) (members : List (String × Json)) : Prop :=
  ∀ fuel rest, cs.length < fuel → readMembers fuel (cs ++ rest) = some (members, rest)

theorem dropSpaces_gap {gap : List Char} (blank : IsGap gap) (cs : List Char) :
    dropSpaces (gap ++ cs) = dropSpaces cs :=
  List.dropWhile_append_of_pos blank

theorem dropSpaces_of_head {c : Char} (solid : isSpace c = false) (cs : List Char) :
    dropSpaces (c :: cs) = c :: cs :=
  List.dropWhile_cons_of_neg (by simp [solid])

theorem readValue_gap {gap : List Char} (blank : IsGap gap) (fuel : Nat) (cs : List Char) :
    readValue fuel (gap ++ cs) = readValue fuel cs := by
  cases fuel with
  | zero => rfl
  | succ fuel => rw [readValue, readValue, dropSpaces_gap blank]

theorem Reads.behind {gap cs : List Char} {value : Json} (reads : Reads cs value) (blank : IsGap gap) :
    Reads (gap ++ cs) value := by
  intro fuel rest enough
  rw [List.append_assoc, readValue_gap blank]
  exact reads fuel rest (by rw [List.length_append] at enough; omega)

theorem reads_string (text : String) : Reads (quoted text) (.string text) := by
  intro fuel rest enough
  obtain ⟨fuel, rfl⟩ := Nat.exists_eq_succ_of_ne_zero (Nat.ne_zero_of_lt enough)
  have inside : quoted text ++ rest = '"' :: (text.toList.flatMap escape ++ '"' :: rest) := by
    simp [quoted, quote]
  rw [inside, readValue, dropSpaces_of_head (by decide)]
  simp only [readString_escaped, Option.map_some, String.ofList_toList]

/-! ### Arrays -/

theorem reads_emptyArray : Reads ['[', ']'] (.array []) := by
  intro fuel rest enough
  obtain ⟨fuel, rfl⟩ := Nat.exists_eq_succ_of_ne_zero (Nat.ne_zero_of_lt enough)
  rfl

theorem readItems_closed {cs rest : List Char} (closed : dropSpaces cs = ']' :: rest) (fuel : Nat) :
    readItems fuel cs = none := by
  have value (fuel : Nat) : readValue fuel cs = none := by
    cases fuel with
    | zero => rfl
    | succ fuel =>
      rw [readValue, closed]
      rfl
  cases fuel with
  | zero => rfl
  | succ fuel => rw [readItems, value]

theorem ReadsItems.array {cs : List Char} {items : List Json} (reads : ReadsItems cs items) :
    Reads ('[' :: cs) (.array items) := by
  intro fuel rest enough
  obtain ⟨fuel, rfl⟩ := Nat.exists_eq_succ_of_ne_zero (Nat.ne_zero_of_lt enough)
  have read := reads fuel rest (Nat.lt_of_succ_lt_succ enough)
  have opened : dropSpaces ('[' :: (cs ++ rest)) = '[' :: (cs ++ rest) := dropSpaces_of_head (by decide) _
  simp only [List.cons_append, readValue, opened]
  -- If the bracket closed at once, no items would have been read.
  split
  · rename_i closed
    rw [readItems_closed closed] at read
    cases read
  · rw [read]
    rfl

theorem ReadsItems.last {chunk gap : List Char} {item : Json} (reads : Reads chunk item) (blank : IsGap gap) :
    ReadsItems (chunk ++ gap ++ [']']) [item] := by
  intro fuel rest enough
  obtain ⟨fuel, rfl⟩ := Nat.exists_eq_succ_of_ne_zero (Nat.ne_zero_of_lt enough)
  have read := reads fuel (gap ++ ']' :: rest) (by simp at enough; omega)
  have split : chunk ++ gap ++ [']'] ++ rest = chunk ++ (gap ++ ']' :: rest) := by simp
  rw [split, readItems, read]
  simp only [dropSpaces_gap blank, dropSpaces_of_head (by decide : isSpace ']' = false)]

theorem ReadsItems.more {chunk cs : List Char} {item : Json} {items : List Json} (reads : Reads chunk item)
    (later : ReadsItems cs items) : ReadsItems (chunk ++ ',' :: cs) (item :: items) := by
  intro fuel rest enough
  obtain ⟨fuel, rfl⟩ := Nat.exists_eq_succ_of_ne_zero (Nat.ne_zero_of_lt enough)
  simp only [List.length_append, List.length_cons] at enough
  have read := reads fuel (',' :: (cs ++ rest)) (by omega)
  have readLater := later fuel rest (by omega)
  have split : chunk ++ ',' :: cs ++ rest = chunk ++ ',' :: (cs ++ rest) := by simp
  rw [split, readItems, read]
  simp only [dropSpaces_of_head (by decide : isSpace ',' = false), readLater, Option.map_some]

theorem readsItems_intercalate {chunk : Json → List Char} {gap : List Char} (blank : IsGap gap) {items : List Json}
    (nonempty : items ≠ []) (each : ∀ item ∈ items, Reads (chunk item) item) :
    ReadsItems ([','].intercalate (items.map chunk) ++ gap ++ [']']) items := by
  induction items with
  | nil => exact absurd rfl nonempty
  | cons item items ih =>
    obtain ⟨first, later⟩ := List.forall_mem_cons.mp each
    cases items with
    | nil => simpa using ReadsItems.last first blank
    | cons next items =>
      have more := ReadsItems.more first (ih (List.cons_ne_nil _ _) later)
      simpa [List.intercalate_cons_cons] using more

/-! ### Objects -/

theorem reads_emptyObject : Reads ['\x7b', '\x7d'] (.object []) := by
  intro fuel rest enough
  obtain ⟨fuel, rfl⟩ := Nat.exists_eq_succ_of_ne_zero (Nat.ne_zero_of_lt enough)
  rfl

theorem readMembers_closed {cs rest : List Char} (closed : dropSpaces cs = '\x7d' :: rest) (fuel : Nat) :
    readMembers fuel cs = none := by
  cases fuel with
  | zero => rfl
  | succ fuel =>
    rw [readMembers, closed]
    rfl

theorem ReadsMembers.object {cs : List Char} {members : List (String × Json)}
    (reads : ReadsMembers cs members) : Reads ('\x7b' :: cs) (.object members) := by
  intro fuel rest enough
  obtain ⟨fuel, rfl⟩ := Nat.exists_eq_succ_of_ne_zero (Nat.ne_zero_of_lt enough)
  have read := reads fuel rest (Nat.lt_of_succ_lt_succ enough)
  have opened : dropSpaces ('\x7b' :: (cs ++ rest)) = '\x7b' :: (cs ++ rest) := dropSpaces_of_head (by decide) _
  simp only [List.cons_append, readValue, opened]
  split
  · rename_i closed
    rw [readMembers_closed closed] at read
    cases read
  · rw [read]
    rfl

/-- A key behind a gap, and the value behind the colon. -/
def ReadsMember (cs : List Char) (member : String × Json) : Prop :=
  ∃ gap value, IsGap gap ∧ cs = gap ++ quoted member.1 ++ ':' :: value ∧ Reads value member.2

/-- What follows a member tells whether it is the last one. -/
theorem readMembers_member {cs : List Char} {member : String × Json} (reads : ReadsMember cs member) {fuel : Nat}
    (enough : cs.length < fuel) {tail rest : List Char} :
    (dropSpaces tail = '\x7d' :: rest → readMembers (fuel + 1) (cs ++ tail) = some ([member], rest)) ∧
      ∀ more members, dropSpaces tail = ',' :: more → readMembers fuel more = some (members, rest) →
        readMembers (fuel + 1) (cs ++ tail) = some (member :: members, rest) := by
  obtain ⟨gap, value, blank, rfl, reads⟩ := reads
  simp only [quoted, quote, List.length_append, List.length_cons] at enough
  have split : gap ++ quoted member.1 ++ ':' :: value ++ tail =
      gap ++ '"' :: (member.1.toList.flatMap escape ++ '"' :: ':' :: (value ++ tail)) := by
    simp [quoted, quote]
  have quoteMark (cs : List Char) : dropSpaces ('"' :: cs) = '"' :: cs := dropSpaces_of_head (by decide) cs
  have colon (cs : List Char) : dropSpaces (':' :: cs) = ':' :: cs := dropSpaces_of_head (by decide) cs
  have here := reads fuel tail (by omega)
  rw [split, readMembers, dropSpaces_gap blank]
  simp only [quoteMark, readString_escaped, colon, here, String.ofList_toList]
  constructor
  · intro closed
    simp only [closed]
  · intro more members comma later
    simp only [comma, later, Option.map_some]

theorem ReadsMembers.last {chunk gap : List Char} {member : String × Json} (reads : ReadsMember chunk member)
    (blank : IsGap gap) : ReadsMembers (chunk ++ gap ++ ['\x7d']) [member] := by
  intro fuel rest enough
  obtain ⟨fuel, rfl⟩ := Nat.exists_eq_succ_of_ne_zero (Nat.ne_zero_of_lt enough)
  simp only [List.length_append, List.length_cons] at enough
  have split : chunk ++ gap ++ ['\x7d'] ++ rest = chunk ++ (gap ++ '\x7d' :: rest) := by simp
  have closed : dropSpaces (gap ++ '\x7d' :: rest) = '\x7d' :: rest := by
    rw [dropSpaces_gap blank, dropSpaces_of_head (by decide)]
  rw [split]
  exact (readMembers_member reads (by omega)).1 closed

theorem ReadsMembers.more {chunk cs : List Char} {member : String × Json} {members : List (String × Json)}
    (reads : ReadsMember chunk member) (later : ReadsMembers cs members) :
    ReadsMembers (chunk ++ ',' :: cs) (member :: members) := by
  intro fuel rest enough
  obtain ⟨fuel, rfl⟩ := Nat.exists_eq_succ_of_ne_zero (Nat.ne_zero_of_lt enough)
  simp only [List.length_append, List.length_cons] at enough
  have split : chunk ++ ',' :: cs ++ rest = chunk ++ ',' :: (cs ++ rest) := by simp
  have comma : dropSpaces (',' :: (cs ++ rest)) = ',' :: (cs ++ rest) := dropSpaces_of_head (by decide) _
  rw [split]
  exact (readMembers_member reads (by omega)).2 _ _ comma (later fuel rest (by omega))

theorem readsMembers_intercalate {chunk : String × Json → List Char} {gap : List Char} (blank : IsGap gap)
    {members : List (String × Json)} (nonempty : members ≠ [])
    (each : ∀ member ∈ members, ReadsMember (chunk member) member) :
    ReadsMembers ([','].intercalate (members.map chunk) ++ gap ++ ['\x7d']) members := by
  induction members with
  | nil => exact absurd rfl nonempty
  | cons member members ih =>
    obtain ⟨first, later⟩ := List.forall_mem_cons.mp each
    cases members with
    | nil => simpa using ReadsMembers.last first blank
    | cons next members =>
      have more := ReadsMembers.more first (ih (List.cons_ne_nil _ _) later)
      simpa [List.intercalate_cons_cons] using more

/-! ### Written values -/

/-- Made of strings, arrays and objects. -/
inductive Textual : Json → Prop
  | string (text : String) : Textual (.string text)
  | array {items : List Json} (each : ∀ item ∈ items, Textual item) : Textual (.array items)
  | object {members : List (String × Json)} (each : ∀ member ∈ members, Textual member.2) :
      Textual (.object members)

theorem isGap_newLine (indent : Nat) : IsGap (newLine indent) := by
  intro c member
  rcases List.mem_cons.mp member with rfl | member
  · rfl
  · obtain rfl := List.eq_of_mem_replicate member
    rfl

theorem Textual.reads_compact {value : Json} (textual : Textual value) : Reads value.compactChars value := by
  induction textual with
  | string text => exact reads_string text
  | @array items each ih =>
    rw [compactChars, compactItems_eq]
    by_cases empty : items = []
    · subst empty
      exact reads_emptyArray
    · have inside := readsItems_intercalate (List.forall_mem_nil _ : IsGap []) empty ih
      rw [List.append_nil] at inside
      exact inside.array
  | @object members each ih =>
    rw [compactChars, compactMembers_eq]
    by_cases empty : members = []
    · subst empty
      exact reads_emptyObject
    · have chunks : ∀ member ∈ members, ReadsMember (compactMember member) member :=
        fun member listed => ⟨[], _, List.forall_mem_nil _, rfl, ih member listed⟩
      have inside := readsMembers_intercalate (List.forall_mem_nil _ : IsGap []) empty chunks
      rw [List.append_nil] at inside
      exact inside.object

theorem Textual.reads_pretty {value : Json} (textual : Textual value) (indent : Nat) :
    Reads (prettyChars indent value) value := by
  induction textual generalizing indent with
  | string text => exact reads_string text
  | @array items each ih =>
    cases items with
    | nil => exact reads_emptyArray
    | cons item rest =>
      have chunks : ∀ item' ∈ item :: rest, Reads (prettyItem (indent + 1) item') item' :=
        fun item' listed => (ih item' listed (indent + 1)).behind (isGap_newLine _)
      have inside := readsItems_intercalate (isGap_newLine indent) (List.cons_ne_nil item rest) chunks
      rw [← prettyItems_eq] at inside
      exact inside.array
  | @object members each ih =>
    cases members with
    | nil => exact reads_emptyObject
    | cons member rest =>
      have space : IsGap [' '] := List.forall_mem_singleton.mpr rfl
      have chunks : ∀ member' ∈ member :: rest, ReadsMember (prettyMember (indent + 1) member') member' :=
        fun member' listed => ⟨_, _, isGap_newLine _, rfl, (ih member' listed (indent + 1)).behind space⟩
      have inside := readsMembers_intercalate (isGap_newLine indent) (List.cons_ne_nil member rest) chunks
      rw [← prettyMembers_eq] at inside
      exact inside.object

theorem Reads.read? {cs : List Char} {value : Json} (reads : Reads cs value) :
    Json.read? (String.ofList cs) = some value := by
  have whole := reads (cs.length + 1) [] (Nat.lt_succ_self _)
  rw [List.append_nil] at whole
  rw [Json.read?, String.toList_ofList, whole]
  rfl

theorem read?_compact {value : Json} (textual : Textual value) : read? value.compact = some value :=
  textual.reads_compact.read?

theorem read?_pretty {value : Json} (textual : Textual value) : read? value.pretty = some value :=
  (textual.reads_pretty 0).read?

/-- What is read back from its text has a text of its own. -/
theorem eq_of_text_eq {write : Json → String}
    (back : ∀ {value}, Textual value → Json.read? (write value) = some value) {value other : Json}
    (textual : Textual value) (textual' : Textual other) (same : write value = write other) : value = other := by
  have read := back textual
  rw [same, back textual'] at read
  exact (Option.some.inj read).symm

end DataBind.Json
