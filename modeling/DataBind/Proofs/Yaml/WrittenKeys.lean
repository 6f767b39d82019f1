import DataBind.Proofs.Yaml.WrittenScalars

/-!
# Keys on one line

A key without an indicator of its own has no line break and at most 128 bytes. Escapes make at most four
bytes of one, so its colon comes before the lexer forgets where the key began.
-/

namespace DataBind.Yaml

namespace Cursor

theorem byteCount_toList (text : String) : byteCount text.toList = text.utf8ByteSize := by
  have encoded (cs : List Char) : byteCount cs = (cs.flatMap String.utf8EncodeChar).length := by
    induction cs with
    | nil => rfl
    | cons c cs ih =>
      rw [byteCount_cons, List.flatMap_cons, List.length_append, String.length_utf8EncodeChar, ih]
  rw [encoded, String.utf8ByteSize, ← String.utf8Encode_toList]
  simp [List.utf8Encode]

theorem byteCount_flatMap_le {f : Char → List Char} {k : Nat} {cs : List Char}
    (each : ∀ c ∈ cs, byteCount (f c) ≤ k * c.utf8Size) : byteCount (cs.flatMap f) ≤ k * byteCount cs := by
  induction cs with
  | nil => exact Nat.zero_le _
  | cons c cs ih =>
    obtain ⟨first, later⟩ := List.forall_mem_cons.mp each
    rw [List.flatMap_cons, byteCount_append, byteCount_cons, Nat.mul_add]
    exact Nat.add_le_add first (ih later)

end Cursor

open Cursor

theorem utf8Size_of_escapeLetter? {c letter : Char} (named : escapeLetter? c = some letter) :
    letter.utf8Size = 1 := by
  unfold escapeLetter? at named
  split at named
  all_goals
    cases named
    try rfl

theorem byteCount_hexDigits (width n : Nat) : byteCount (hexDigits width n) = width := by
  have digits : ∀ m < 16, (Nat.digitChar m).toUpper.utf8Size = 1 := by decide
  induction width with
  | zero => rfl
  | succ width ih =>
    rw [hexDigits_succ, byteCount_cons, ih, Text.hexDigit, digits _ (Nat.mod_lt _ (by decide)), Nat.add_comm]

theorem utf8Size_of_lt {c : Char} : (0xFF < c.toNat → 2 ≤ c.utf8Size) ∧ (0xFFFF < c.toNat → 4 ≤ c.utf8Size) := by
  have value : c.toNat = c.val.toNat := rfl
  constructor
  · intro large
    simp only [Char.utf8Size, UInt32.le_iff_toNat_le]
    split
    · rename_i small
      simp at small
      omega
    · split
      · exact Nat.le_refl _
      · split <;> decide
  · intro large
    simp only [Char.utf8Size, UInt32.le_iff_toNat_le]
    split
    · rename_i small
      simp at small
      omega
    · split
      · rename_i small
        simp at small
        omega
      · split
        · rename_i small
          simp at small
          omega
        · exact Nat.le_refl _

theorem byteCount_doubleQuotedChar (c : Char) : byteCount (doubleQuotedChar c) ≤ 4 * c.utf8Size := by
  have positive := Char.utf8Size_pos c
  obtain ⟨two, four⟩ := @utf8Size_of_lt c
  have backslash : '\\'.utf8Size = 1 := rfl
  have x : 'x'.utf8Size = 1 := rfl
  have u : 'u'.utf8Size = 1 := rfl
  have U : 'U'.utf8Size = 1 := rfl
  unfold doubleQuotedChar
  split
  · unfold escapeChar
    split
    · rename_i letter named
      rw [byteCount_cons, byteCount_cons, utf8Size_of_escapeLetter? named, backslash]
      exact Nat.le_trans (by decide) (Nat.mul_le_mul_left 4 positive)
    · split
      · rw [byteCount_cons, byteCount_cons, byteCount_hexDigits, backslash, x]
        omega
      · split
        · have size := two (by omega)
          rw [byteCount_cons, byteCount_cons, byteCount_hexDigits, backslash, u]
          omega
        · have size := four (by omega)
          rw [byteCount_cons, byteCount_cons, byteCount_hexDigits, backslash, U]
          omega
  · rw [byteCount_cons]
    have none : byteCount [] = 0 := rfl
    omega

theorem byteCount_singleQuotedChar (c : Char) : byteCount (singleQuotedChar c) ≤ 4 * c.utf8Size := by
  have positive := Char.utf8Size_pos c
  unfold singleQuotedChar
  split
  · have two : byteCount ['\'', '\''] = 2 := rfl
    omega
  · rw [byteCount_cons]
    have none : byteCount [] = 0 := rfl
    omega

variable {indent : Nat} {text written : List Char} {style : ScalarStyle}

/-- A text of one line is written on one line, and not too long. -/
theorem WrittenAs.oneLine (as : WrittenAs indent text style written) (unbroken : ∀ c ∈ text, isBreak c = false) :
    (∀ c ∈ written, isBreak c = false) ∧ byteCount written ≤ 4 * byteCount text + 2 := by
  cases as with
  | plain => exact ⟨unbroken, by omega⟩
  | single =>
    have lines := singleQuotedRest_append indent unbroken []
    rw [List.append_nil, singleQuotedRest, if_neg (by decide), spaces, List.replicate_zero, List.append_nil] at lines
    have size := byteCount_flatMap_le fun c (_ : c ∈ text) => byteCount_singleQuotedChar c
    have single : '\''.utf8Size = 1 := rfl
    rw [lines]
    constructor
    · refine forall_mem_quoted rfl fun d member => ?_
      obtain ⟨c, inside, member⟩ := List.mem_flatMap.mp member
      unfold singleQuotedChar at member
      split at member
      · have same : d = '\'' := by simpa using member
        rw [same]
        decide
      · rw [List.mem_singleton.mp member, unbroken c inside]
    · have none : byteCount [] = 0 := rfl
      rw [byteCount_append, byteCount_cons, byteCount_cons, single]
      omega
  | double =>
    have size := byteCount_flatMap_le fun c (_ : c ∈ text) => byteCount_doubleQuotedChar c
    have quoteSize : '"'.utf8Size = 1 := rfl
    constructor
    · exact forall_mem_quoted rfl fun d member => (doubleQuoted_readable member).1
    · have none : byteCount [] = 0 := rfl
      rw [byteCount_append, byteCount_cons, byteCount_cons, quoteSize]
      omega
  | literal lines => exact absurd (unbroken '\n' lines) (by decide)

namespace Lexer

variable {cursor after : Cursor} {outer : Int} {indents : List Int} {produced : List Token} {tail : List Char}
  {d : Char}

/-- A scalar that may be a key, up to a colon near enough. -/
theorem next_key {c : Char} {rest' : List Char} {token : Token}
    (head : cursor.rest = c :: rest') (rest : cursor.rest = written ++ ':' :: tail)
    (nonempty : written ≠ []) (unbroken : ∀ c ∈ written, isBreak c = false) (short : byteCount written ≤ 1024)
    (inside : outer ≤ cursor.column)
    (step : (inBlock cursor outer indents true none produced).step? c =
      some (inBlock (cursor.past written) outer indents false
        (some (markHere cursor outer produced.length)) (token :: produced))) :
    Next (inBlock cursor outer indents true none produced)
      (inBlock (cursor.past written) outer indents false
        (some (markHere cursor outer produced.length)) (token :: produced)) := by
  have behind := Cursor.rest_past rest
  have begun : Begun (':' :: tail) := by
    rintro _ ⟨⟩
    decide
  have near : (cursor.past written).index ≤ (markHere cursor outer produced.length).index + 1024 := by
    rw [Cursor.index_past rest]
    exact Nat.add_le_add_left short _
  have column : outer ≤ (cursor.past written).column := by
    rw [Cursor.column_past unbroken]
    omega
  exact ⟨c, rest', _, head, step, settle?_marked behind begun (Cursor.line_past unbroken) near column,
    Cursor.length_past_lt rest nonempty⟩

theorem not_seesMarker_plain {a : Char} (rest : cursor.rest = text ++ ':' :: tail)
    (allowed : text.take 3 ≠ [a, a, a]) (other : a ≠ ':') : cursor.seesMarker a = false := by
  have unmarked : cursor.rest.take 3 ≠ [a, a, a] := by
    rw [rest]
    match text with
    | [] | [_] | [_, _] => simp [other.symm]
    | _ :: _ :: _ :: _ => simpa using allowed
  simp [Cursor.seesMarker, unmarked]

theorem next_quoted {single : Bool} {inner : List Char} (quoted : QuotedText single inner text)
    (rest : cursor.rest = quote single :: inner ++ [quote single] ++ ':' :: tail)
    (unbroken : ∀ c ∈ quote single :: inner ++ [quote single], isBreak c = false)
    (short : byteCount (quote single :: inner ++ [quote single]) ≤ 1024) (inside : outer ≤ cursor.column) :
    Next (inBlock cursor outer indents true none produced)
      (inBlock (cursor.past (quote single :: inner ++ [quote single])) outer indents false
        (some (markHere cursor outer produced.length))
        (.scalar (if single then .singleQuoted else .doubleQuoted) (String.ofList text) :: produced)) := by
  have read : quotedScalar? single cursor = some (text, cursor.past (quote single :: inner ++ [quote single])) :=
    quotedScalar?_eq quoted (by simpa using rest) (by simp)
  have plain : quote single ≠ '-' ∧ quote single ≠ '.' ∧ quote single ≠ '%' := by cases single <;> decide
  have unmarked : Unmarked cursor (quote single) := unmarked_of_ne rest plain.1 plain.2.1 plain.2.2
  have step : (inBlock cursor outer indents true none produced).step? (quote single) = some _ :=
    (step?_quote single unmarked).trans (quoted?_inBlock read)
  exact next_key rest rest (by simp) unbroken short inside step

theorem next_text (as : WrittenAs indent text style written) (indented : 0 < indent)
    (unbroken : ∀ c ∈ text, isBreak c = false) (short : byteCount text ≤ 128) (rest : cursor.rest = written ++ ':' :: d :: tail) (gap : isGap d = true)
    (inside : outer ≤ cursor.column) :
    Next (inBlock cursor outer indents true none produced)
      (inBlock (cursor.past written) outer indents false (some (markHere cursor outer produced.length))
        (.scalar style (String.ofList text) :: produced)) := by
  obtain ⟨oneLine, size⟩ := as.oneLine unbroken
  have near : byteCount written ≤ 1024 := by omega
  cases as with
  | plain plain allowed =>
    obtain ⟨c, later, rfl⟩ := List.exists_cons_of_ne_nil plain.nonempty
    obtain ⟨other, -, dashes, dots⟩ := not_beginsAsIndicator allowed
    have stop : PlainStop (outer + 1).toNat (':' :: d :: tail) [] false := .colon gap
    have solid := (plain.classes c List.mem_cons_self).resolve_left (plain.begins c rfl).1
    have noDashes := not_seesMarker_plain rest dashes (by decide)
    have noDots := not_seesMarker_plain rest dots (by decide)
    have noPercent : c ≠ '%' := by
      rintro rfl
      exact other (by decide)
    have unmarked : cursor.seesDocumentMarker = false := by rw [Cursor.seesDocumentMarker, noDashes, noDots]; rfl
    have read := plainScalar?_text plain stop rest (by omega) unmarked
    rw [List.append_nil] at read
    have step : (inBlock cursor outer indents true none produced).step? c = some _ :=
      (step?_plain allowed rfl rest solid ⟨by simp [noPercent], noDashes, noDots⟩).trans (plain?_inBlock read)
    exact next_key rest rest (by simp) oneLine near inside step
  | single noLineFeed printable before after =>
    exact next_quoted (quotedText_single indented noLineFeed printable before after) rest oneLine near inside
  | double => exact next_quoted (quotedText_double text) rest oneLine near inside
  | literal lines => exact absurd (unbroken '\n' lines) (by decide)

end Lexer

end DataBind.Yaml
