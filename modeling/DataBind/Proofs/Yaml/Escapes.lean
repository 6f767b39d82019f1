import DataBind.Json.Text
import DataBind.Proofs.Yaml.Cursors
import DataBind.Yaml.FlowText
import DataBind.Yaml.WrittenText
import Mathlib.Algebra.Group.Nat.Defs

/-!
# Escaped characters

What either writer puts between double quotes for one character is read back as that character: the
escapes of YAML, the fewer ones of JSON, and characters that stand for themselves.
-/

namespace DataBind

namespace Text

theorem hexValue?_hexDigit (n : Nat) : hexValue? (hexDigit n) = some (n % 16) := by
  have digits : ∀ m < 16, hexValue? (Nat.digitChar m) = some m := by decide
  exact digits (n % 16) (Nat.mod_lt n (by decide))

theorem hexValue?_toUpper_hexDigit (n : Nat) : hexValue? (hexDigit n).toUpper = some (n % 16) := by
  have digits : ∀ m < 16, hexValue? (Nat.digitChar m).toUpper = some m := by decide
  exact digits (n % 16) (Nat.mod_lt n (by decide))

end Text

namespace Yaml

theorem hexDigits_succ (width n : Nat) :
    hexDigits (width + 1) n = (Text.hexDigit (n / Nat.pow 16 width)).toUpper :: hexDigits width n := by
  simp [hexDigits, List.range_succ]

theorem foldlM_hexDigits (width n value : Nat) :
    (hexDigits width n).foldlM (fun value c => do
        let digit ← Text.hexValue? c
        if digit < 16 then some (16 * value + digit) else none) value =
      some (16 ^ width * value + n % 16 ^ width) := by
  induction width generalizing value with
  | zero => simp [hexDigits, Nat.mod_one]
  | succ width ih =>
    have small : n / Nat.pow 16 width % 16 < 16 := Nat.mod_lt _ (by decide)
    have digits : n % 16 ^ (width + 1) = n % 16 ^ width + 16 ^ width * (n / 16 ^ width % 16) :=
      Nat.mod_pow_succ
    rw [hexDigits_succ, List.foldlM_cons, Text.hexValue?_toUpper_hexDigit, Option.bind_eq_bind,
      Option.bind_some, if_pos small]
    refine (ih _).trans (congrArg some ?_)
    rw [digits, Nat.pow_eq, Nat.pow_succ, Nat.mul_add, ← Nat.mul_assoc]
    omega

theorem numberIn?_hexDigits {width n : Nat} (fits : n < 16 ^ width) :
    Text.numberIn? 16 (hexDigits width n) = some n := by
  rw [Text.numberIn?, foldlM_hexDigits, Nat.mul_zero, Nat.zero_add, Nat.mod_eq_of_lt fits]

theorem charOfHex?_eq {digits : List Char} {c : Char}
    (value : Text.numberIn? 16 digits = some c.toNat) : charOfHex? digits = some c := by
  have valid : c.toNat.isValidChar := c.valid
  simp [charOfHex?, value, valid]

/-- Within double quotes the characters are read as this one. -/
def Unescapes (written : List Char) (c : Char) : Prop :=
  ∀ rest, doubleWord? (written ++ rest) = doubleWord?.after? (some c) (doubleWord? rest)

theorem unescapes_self {c : Char} (word : isGap c = false) (quote : c ≠ '"') (backslash : c ≠ '\\') :
    Unescapes [c] c := by
  intro rest
  rw [List.singleton_append, doubleWord?.eq_def]
  simp [word, quote, backslash]

theorem unescapes_letter {letter c : Char} (named : unescape? letter = some c)
    (plain : letter ∉ ['x', 'u', 'U']) (unbroken : isBreak letter = false) :
    Unescapes ['\\', letter] c := by
  intro rest
  simp only [List.mem_cons, List.not_mem_nil, or_false, not_or] at plain
  obtain ⟨x, u, U⟩ := plain
  rw [List.cons_append, List.singleton_append, doubleWord?.eq_def]
  simp [unbroken, x, u, U, named]

theorem unescapes_hex {c : Char} :
    (c.toNat < 16 ^ 2 → Unescapes ('\\' :: 'x' :: hexDigits 2 c.toNat) c) ∧
    (c.toNat < 16 ^ 4 → Unescapes ('\\' :: 'u' :: hexDigits 4 c.toNat) c) ∧
    (c.toNat < 16 ^ 8 → Unescapes ('\\' :: 'U' :: hexDigits 8 c.toNat) c) := by
  have read {width : Nat} (fits : c.toNat < 16 ^ width) :
      charOfHex? (hexDigits width c.toNat) = some c := charOfHex?_eq (numberIn?_hexDigits fits)
  refine ⟨fun fits rest => ?_, fun fits rest => ?_, fun fits rest => ?_⟩
  all_goals
    rw [← read fits]
    rfl

theorem escapeLetter?_eq_some {c letter : Char} (named : escapeLetter? c = some letter) :
    unescape? letter = some c ∧ letter ∉ ['x', 'u', 'U'] ∧ isGap letter = false ∧
      isReadable letter = true := by
  unfold escapeLetter? at named
  split at named
  all_goals
    cases named
    try decide

/-- The characters of an escape. -/
def IsWordText (written : List Char) : Prop :=
  ∀ d ∈ written, isGap d = false ∧ isReadable d = true

theorem isWordText_hexDigits (width n : Nat) : IsWordText (hexDigits width n) := by
  have digits : ∀ m < 16, isGap (Nat.digitChar m).toUpper = false ∧
      isReadable (Nat.digitChar m).toUpper = true := by decide
  intro d member
  obtain ⟨i, -, rfl⟩ := List.mem_map.mp (List.mem_reverse.mp member)
  exact digits _ (Nat.mod_lt _ (by decide))

theorem IsWordText.cons {d : Char} {written : List Char} (first : isGap d = false ∧ isReadable d = true)
    (later : IsWordText written) : IsWordText (d :: written) :=
  List.forall_mem_cons.mpr ⟨first, later⟩

theorem forall_mem_quoted {p : Char → Prop} {mark : Char} {written : List Char} (quote : p mark)
    (inside : ∀ c ∈ written, p c) : ∀ c ∈ mark :: written ++ [mark], p c :=
  List.forall_mem_append.mpr ⟨List.forall_mem_cons.mpr ⟨quote, inside⟩, List.forall_mem_singleton.mpr quote⟩

theorem isReadable_of_isPrintable {c : Char} (h : isPrintable c = true) : isReadable c = true := by
  simp only [isPrintable, isReadable, Bool.or_eq_true, Bool.and_eq_true, beq_iff_eq,
    decide_eq_true_eq] at h ⊢
  omega

theorem eq_space_or_isBreak {c : Char} (printable : isPrintable c = true) (gap : isGap c = true) :
    c = ' ' ∨ isBreak c = true := by
  simp only [isGap, isBlank, Bool.or_eq_true, beq_iff_eq] at gap
  rcases gap with (rfl | rfl) | broken
  · exact .inl rfl
  · exact absurd printable (by decide)
  · exact .inr broken

theorem escapeChar_spec (c : Char) : Unescapes (escapeChar c) c ∧ IsWordText (escapeChar c) := by
  have backslash : isGap '\\' = false ∧ isReadable '\\' = true := by decide
  obtain ⟨byte, short, long⟩ := @unescapes_hex c
  unfold escapeChar
  split
  · rename_i letter named
    obtain ⟨back, plain, word, readable⟩ := escapeLetter?_eq_some named
    refine ⟨unescapes_letter back plain (isBreak_of_not_isGap word), .cons backslash (.cons ⟨word, readable⟩ ?_)⟩
    exact List.forall_mem_nil _
  · split
    · exact ⟨byte (by omega), .cons backslash (.cons (by decide) (isWordText_hexDigits 2 _))⟩
    · split
      · exact ⟨short (by omega), .cons backslash (.cons (by decide) (isWordText_hexDigits 4 _))⟩
      · have bounded : c.toNat < UInt32.size := c.val.toNat_lt
        exact ⟨long bounded, .cons backslash (.cons (by decide) (isWordText_hexDigits 8 _))⟩

/-- Only spaces stand for themselves where they would be a gap. -/
theorem doubleQuotedChar_spec {c : Char} (h : c ≠ ' ') :
    Unescapes (doubleQuotedChar c) c ∧ IsWordText (doubleQuotedChar c) := by
  unfold doubleQuotedChar
  split
  · exact escapeChar_spec c
  · rename_i plain
    simp only [Bool.or_eq_true, Bool.not_eq_true', beq_iff_eq, not_or, Bool.not_eq_false] at plain
    obtain ⟨⟨⟨printable, unbroken⟩, quote⟩, backslash⟩ := plain
    have word : isGap c = false := by
      refine Bool.eq_false_iff.mpr fun gap => ?_
      rcases eq_space_or_isBreak printable gap with same | broken
      · exact h same
      · exact unbroken broken
    refine ⟨unescapes_self word quote backslash, .cons ⟨word, isReadable_of_isPrintable printable⟩ ?_⟩
    exact List.forall_mem_nil _

theorem unescapes_control {c : Char} (small : c.toNat < 0x20) :
    Unescapes ['\\', 'u', '0', '0', Text.hexDigit (c.toNat / 16), Text.hexDigit c.toNat] c := by
  have value : Text.numberIn? 16 ['0', '0', Text.hexDigit (c.toNat / 16), Text.hexDigit c.toNat] =
      some c.toNat := by
    have high : c.toNat / 16 % 16 < 16 := Nat.mod_lt _ (by decide)
    have low : c.toNat % 16 < 16 := Nat.mod_lt _ (by decide)
    have zero : Text.hexValue? '0' = some 0 := by decide
    simp [Text.numberIn?, zero, Text.hexValue?_hexDigit, high, low]
    omega
  intro rest
  rw [← charOfHex?_eq value]
  rfl

/-- What is no gap of its own is read back from JSON, and control characters are. -/
theorem escape_spec {c : Char} (h : c.toNat < 0x20 ∨ (isGap c = false ∧ isReadable c = true)) :
    Unescapes (Json.escape c) c ∧ IsWordText (Json.escape c) := by
  have digits : ∀ m < 16, isGap (Nat.digitChar m) = false ∧ isReadable (Nat.digitChar m) = true := by
    decide
  unfold Json.escape
  split
  case h_8 quote backslash _ _ _ _ _ =>
    split
    · rename_i small
      refine ⟨unescapes_control small, ?_⟩
      refine .cons (by decide) (.cons (by decide) (.cons (by decide) (.cons (by decide) ?_)))
      refine .cons (digits _ (Nat.mod_lt _ (by decide))) (.cons (digits _ (Nat.mod_lt _ (by decide))) ?_)
      exact List.forall_mem_nil _
    · rename_i large
      obtain ⟨word, readable⟩ := h.resolve_left large
      exact ⟨unescapes_self word quote backslash, .cons ⟨word, readable⟩ (List.forall_mem_nil _)⟩
  all_goals
    refine ⟨unescapes_letter (by decide) (by decide) (by decide), ?_⟩
    exact .cons (by decide) (.cons (by decide) (List.forall_mem_nil _))

end Yaml

end DataBind
