import DataBind.Filter
import DataBind.Proofs.FirstError
import DataBind.Proofs.Pieces

/-!
# Filter tokens

Parsing a token and writing a filter are inverse to each other: a token is read as a filter exactly
if it is the text of that filter and the function name is one.
-/

namespace DataBind

/-- At least one character, all of them ASCII letters, digits or underscores. -/
def FunctionName (name : String) : Prop :=
  name ≠ "" ∧ ∀ c ∈ name.toList, c.isAlphanum ∨ c = '_'

/-- A function name with one symbol on one side. -/
def FilterToken (token : String) : Prop :=
  ∃ name, FunctionName name ∧
    (token = "+" ++ name ∨ token = "-" ++ name ∨ token = name ++ "+" ∨ token = name ++ "-")

namespace Filter

theorem ofSymbol?_eq_some {c : Char} {kind : FilterKind} :
    FilterKind.ofSymbol? c = some kind ↔ c = kind.symbol := by
  cases kind <;> simp only [FilterKind.ofSymbol?, FilterKind.symbol] <;> grind

theorem isName_iff {cs : List Char} : isName cs = true ↔ FunctionName (String.ofList cs) := by
  simp [isName, isNameChar, FunctionName, ← String.toList_inj]

theorem leading?_eq_some {token : List Char} {filter : Filter} :
    leading? token = some filter ↔
      filter.target = .dom ∧ token = filter.text.toList ∧ FunctionName filter.name := by
  obtain ⟨name, kind, target⟩ := filter
  cases token with
  | nil => cases target <;> simp [leading?, text]
  | cons c cs =>
    constructor
    · intro h
      simp only [leading?] at h
      split at h
      · rename_i found symbol
        split at h
        · rename_i named
          cases h
          refine ⟨rfl, ?_, isName_iff.mp named⟩
          simp [text, ofSymbol?_eq_some.mp symbol]
        · cases h
      · cases h
    · rintro ⟨rfl, same, named⟩
      simp only [text, String.toList_append, String.toList_singleton, List.singleton_append,
        List.cons.injEq] at same
      obtain ⟨hc, rfl⟩ := same
      have isName : isName name.toList = true := isName_iff.mpr (by simpa using named)
      simp [leading?, ofSymbol?_eq_some.mpr hc, isName]

theorem trailing?_eq_some {token : List Char} {filter : Filter} :
    trailing? token = some filter ↔
      filter.target = .model ∧ token = filter.text.toList ∧ FunctionName filter.name := by
  obtain ⟨name, kind, target⟩ := filter
  cases last : token.getLast? with
  | none =>
    rw [List.getLast?_eq_none_iff.mp last]
    cases target <;> simp [trailing?, text]
  | some c =>
    obtain ⟨cs, rfl⟩ := List.getLast?_eq_some_iff.mp last
    constructor
    · intro h
      simp only [trailing?, List.getLast?_concat, List.dropLast_concat] at h
      split at h
      · rename_i found symbol
        split at h
        · rename_i named
          cases h
          refine ⟨rfl, ?_, isName_iff.mp named⟩
          simp [text, ofSymbol?_eq_some.mp symbol]
        · cases h
      · cases h
    · rintro ⟨rfl, same, named⟩
      simp only [text, String.toList_append, String.toList_singleton] at same
      obtain ⟨rfl, hc⟩ := List.append_inj' same rfl
      have isName : isName name.toList = true := isName_iff.mpr (by simpa using named)
      have symbol : c = kind.symbol := by simpa using hc
      simp [trailing?, ofSymbol?_eq_some.mpr symbol, isName]

theorem leading?_eq_none {filter : Filter} (target : filter.target = .model)
    (named : FunctionName filter.name) : leading? filter.text.toList = none := by
  obtain ⟨name, kind, _⟩ := filter
  cases target
  obtain ⟨nonempty, chars⟩ := named
  obtain ⟨c, cs, same⟩ : ∃ c cs, name.toList = c :: cs :=
    List.exists_cons_of_ne_nil (by simpa using nonempty)
  -- A name begins with no symbol, so this is not read as a token with its symbol in front.
  have hc : c.isAlphanum ∨ c = '_' := chars c (same ▸ List.mem_cons_self)
  have none : FilterKind.ofSymbol? c = none := by
    have plus : c ≠ '+' := by rintro rfl; revert hc; decide
    have minus : c ≠ '-' := by rintro rfl; revert hc; decide
    simp [FilterKind.ofSymbol?, plus, minus]
  simp [text, same, leading?, none]

theorem parse_eq_ok {token : String} {filter : Filter} :
    parse token = .ok filter ↔ filter.text = token ∧ FunctionName filter.name := by
  constructor
  · intro h
    unfold parse at h
    split at h
    · rename_i found same
      cases h
      rcases Option.or_eq_some_iff.mp same with front | ⟨-, back⟩
      · obtain ⟨-, text, named⟩ := leading?_eq_some.mp front
        exact ⟨(String.toList_injective text).symm, named⟩
      · obtain ⟨-, text, named⟩ := trailing?_eq_some.mp back
        exact ⟨(String.toList_injective text).symm, named⟩
    · cases h
  · rintro ⟨rfl, named⟩
    unfold parse
    cases target : filter.target with
    | dom => rw [leading?_eq_some.mpr ⟨target, rfl, named⟩]; rfl
    | model =>
      rw [leading?_eq_none target named, trailing?_eq_some.mpr ⟨target, rfl, named⟩]
      rfl

theorem exists_parse_eq_ok {token : String} :
    (∃ filter, parse token = .ok filter) ↔ FilterToken token := by
  constructor
  · rintro ⟨⟨name, kind, target⟩, h⟩
    obtain ⟨rfl, named⟩ := parse_eq_ok.mp h
    refine ⟨name, named, ?_⟩
    cases target <;> cases kind <;> simp [text, FilterKind.symbol]
  · rintro ⟨name, named, rfl | rfl | rfl | rfl⟩
    · exact ⟨⟨name, .formatter, .dom⟩, parse_eq_ok.mpr ⟨rfl, named⟩⟩
    · exact ⟨⟨name, .filter, .dom⟩, parse_eq_ok.mpr ⟨rfl, named⟩⟩
    · exact ⟨⟨name, .formatter, .model⟩, parse_eq_ok.mpr ⟨rfl, named⟩⟩
    · exact ⟨⟨name, .filter, .model⟩, parse_eq_ok.mpr ⟨rfl, named⟩⟩

theorem parse_eq_error {token : String} {cause : DeclarationError} :
    parse token = .error cause ↔ ¬FilterToken token ∧ cause = .badFilter token := by
  rw [← exists_parse_eq_ok]
  cases h : parse token with
  | ok filter => simp
  | error found =>
    have same : found = .badFilter token := by
      unfold parse at h
      split at h
      · cases h
      · cases h
        rfl
    simp [same, eq_comm]

/-! ### The characters of a token -/

def isTextChar (c : Char) : Bool :=
  isNameChar c || c == '+' || c == '-'

theorem isTextChar_of_mem_text {filter : Filter} (named : FunctionName filter.name) {c : Char}
    (h : c ∈ filter.text.toList) : isTextChar c = true := by
  obtain ⟨name, kind, target⟩ := filter
  have inName : c ∈ name.toList → isTextChar c = true := by
    intro member
    rcases named.2 c member with h | h <;> simp [isTextChar, isNameChar, h]
  have symbol : c = kind.symbol → isTextChar c = true := by
    rintro rfl
    cases kind <;> rfl
  cases target with
  | dom =>
    rcases List.mem_append.mp (String.toList_append ▸ h) with h | h
    · exact symbol (by simpa using h)
    · exact inName h
  | model =>
    rcases List.mem_append.mp (String.toList_append ▸ h) with h | h
    · exact inName h
    · exact symbol (by simpa using h)

theorem not_mem_text {filter : Filter} (named : FunctionName filter.name) {c : Char}
    (outside : isTextChar c = false) : c ∉ filter.text.toList := by
  intro inside
  have char : isTextChar c = true := isTextChar_of_mem_text named inside
  rw [outside] at char
  cases char

end Filter

end DataBind
