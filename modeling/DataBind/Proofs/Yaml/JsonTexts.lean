import DataBind.Proofs.Yaml.QuotedTexts
import DataBind.Proofs.Yaml.TreeReading

/-!
# JSON texts as YAML

A tree can be written as JSON, which is YAML in flow style. JSON escapes less than YAML asks for: a text is
kept if all characters are readable, none is a next-line character, no space is next to a separator of
lines, and no line begins like a marker. A key has to be short enough and on one line besides.
-/

namespace DataBind.Yaml

open Cursor (byteCount)

/-- A text between the quotes of JSON. -/
def jsonText (text : String) : List Char :=
  text.toList.flatMap Json.escape

/-- Within the quotes of JSON the text is read back from YAML. -/
def keptInJson (text : String) : Bool :=
  (jsonText text).all (fun c => isReadable c && c != '\x85') && !hasPair isSpace isBreak (jsonText text) &&
    !hasPair isBreak isSpace (jsonText text) && !hasMarkerLine (jsonText text)

def keptAsKey (text : String) : Bool :=
  (jsonText text).all (fun c => isReadable c && !isBreak c) && byteCount (Json.quoted text) ≤ 1024

theorem escape_eq_self {c : Char} (large : 0x20 ≤ c.toNat) (quote : c ≠ '"') (backslash : c ≠ '\\') :
    Json.escape c = [c] := by
  unfold Json.escape
  split
  case h_8 => exact if_neg (Nat.not_lt.mpr large)
  all_goals first | exact absurd rfl quote | exact absurd rfl backslash | exact absurd large (by decide)

/-- A character that JSON does not escape stands in what it writes. -/
theorem mem_jsonText {text : String} {c : Char} (member : c ∈ text.toList) (large : 0x20 ≤ c.toNat)
    (quote : c ≠ '"') (backslash : c ≠ '\\') : c ∈ jsonText text :=
  List.mem_flatMap.mpr ⟨c, member, by rw [escape_eq_self large quote backslash]; exact List.mem_cons_self⟩

/-- What JSON leaves between two gaps is read back. -/
theorem escape_spec_of_kept {text : String} (kept : ∀ c ∈ jsonText text, isReadable c = true ∧ c ≠ '\x85')
    {c : Char} (member : c ∈ text.toList) (space : c ≠ ' ') (separator : isSeparator c = false) :
    Unescapes (Json.escape c) c ∧ IsWordText (Json.escape c) := by
  refine escape_spec (or_iff_not_imp_left.mpr fun large => ?_)
  by_cases quote : c = '"'
  · subst quote
    decide
  · by_cases backslash : c = '\\'
    · subst backslash
      decide
    · obtain ⟨readable, nextLine⟩ := kept c (mem_jsonText member (Nat.not_lt.mp large) quote backslash)
      refine ⟨Bool.eq_false_iff.mpr fun gap => ?_, readable⟩
      simp only [isSeparator, Bool.or_eq_false_iff, beq_eq_false_iff_ne] at separator
      simp only [isGap, isBlank, isBreak, Bool.or_eq_true, beq_iff_eq] at gap
      rcases gap with (same | rfl) | (((rfl | rfl) | same) | same) | same
      · exact space same
      · exact large (by decide)
      · exact large (by decide)
      · exact large (by decide)
      · exact nextLine same
      · exact separator.1 same
      · exact separator.2 same

theorem quotedText_json {text : String} (kept : keptInJson text = true) :
    QuotedText false (jsonText text) text.toList := by
  simp only [keptInJson, Bool.and_eq_true, Bool.not_eq_true', List.all_eq_true, bne_iff_ne] at kept
  obtain ⟨⟨⟨readable, before⟩, after⟩, unmarked⟩ := kept
  refine quotedText_escaped (fun c => isSpace c || isSeparator c) ?_ ?_ before after unmarked
  · intro c member word
    simp only [Bool.or_eq_false_iff, isSpace, beq_eq_false_iff_ne] at word
    exact escape_spec_of_kept readable member word.1 word.2
  · intro c member raw
    simp only [Bool.or_eq_true, isSpace, beq_iff_eq] at raw
    refine ⟨?_, raw⟩
    rcases raw with rfl | separator
    · decide
    · simp only [isSeparator, Bool.or_eq_true, beq_iff_eq] at separator
      rcases separator with rfl | rfl <;> decide

theorem keptInJson_of_keptAsKey {text : String} (kept : keptAsKey text = true) : keptInJson text = true := by
  simp only [keptAsKey, Bool.and_eq_true, List.all_eq_true, Bool.not_eq_true'] at kept
  have unbroken : ∀ c ∈ jsonText text, isBreak c = false := fun c member => (kept.1 c member).2
  obtain ⟨before, after⟩ := hasPair_isBreak unbroken
  have notNextLine : ∀ c ∈ jsonText text, isReadable c = true ∧ c ≠ '\x85' := fun c member => by
    refine ⟨(kept.1 c member).1, ?_⟩
    rintro rfl
    exact absurd (unbroken _ member) (by decide)
  simpa [keptInJson, before, after, hasMarkerLine_unbroken unbroken] using notNextLine

theorem isBreak_quoted_of_keptAsKey {text : String} (kept : keptAsKey text = true) :
    (∀ c ∈ Json.quoted text, isBreak c = false) ∧ byteCount (Json.quoted text) ≤ 1024 := by
  simp only [keptAsKey, Bool.and_eq_true, List.all_eq_true, Bool.not_eq_true', decide_eq_true_eq] at kept
  exact ⟨forall_mem_quoted rfl fun c member => (kept.1 c member).2, kept.2⟩

theorem isReadable_quoted {text : String} (kept : keptInJson text = true) :
    ∀ c ∈ Json.quoted text, isReadable c = true := by
  simp only [keptInJson, Bool.and_eq_true, List.all_eq_true] at kept
  exact forall_mem_quoted rfl fun c member => (kept.1.1.1 c member).1

/-! ### Trees -/

namespace Tree

mutual

def toJson : Tree → Json
  | text value => .string value
  | sequence items => .array (itemsJson items)
  | mapping pairs => .object (pairsJson pairs)

def itemsJson : List Tree → List Json
  | [] => []
  | item :: rest => item.toJson :: itemsJson rest

def pairsJson : List (String × Tree) → List (String × Json)
  | [] => []
  | (key, value) :: rest => (key, value.toJson) :: pairsJson rest

end

mutual

/-- All texts and keys of a tree are kept. -/
def kept : Tree → Bool
  | text value => keptInJson value
  | sequence items => keptItems items
  | mapping pairs => keptPairs pairs

def keptItems : List Tree → Bool
  | [] => true
  | item :: rest => item.kept && keptItems rest

def keptPairs : List (String × Tree) → Bool
  | [] => true
  | (key, value) :: rest => keptAsKey key && value.kept && keptPairs rest

end

theorem itemsJson_eq_map (items : List Tree) : itemsJson items = items.map toJson := by
  induction items with
  | nil => rfl
  | cons item rest ih => rw [itemsJson, ih, List.map_cons]

theorem pairsJson_eq_map (pairs : List (String × Tree)) :
    pairsJson pairs = pairs.map fun pair => (pair.1, pair.2.toJson) := by
  induction pairs with
  | nil => rfl
  | cons pair rest ih => rw [pairsJson, ih, List.map_cons]

theorem keptItems_eq_all (items : List Tree) : keptItems items = items.all kept := by
  induction items with
  | nil => rfl
  | cons item rest ih => rw [keptItems, ih, List.all_cons]

theorem keptPairs_eq_all (pairs : List (String × Tree)) :
    keptPairs pairs = pairs.all fun pair => keptAsKey pair.1 && pair.2.kept := by
  induction pairs with
  | nil => rfl
  | cons pair rest ih => rw [keptPairs, ih, List.all_cons]

end Tree

end DataBind.Yaml
