import DataBind.Proofs.FilterTokens
import Mathlib.Data.List.Forall2

/-!
# Filter chains

A chain is read piece by piece: each piece gives one filter, and the first piece that is no token is the
error. `TokenReading` lists the four forms of a token with what each stands for. The chains that are read
are the texts of one filter or more, joined by bars.
-/

namespace DataBind

/-- A symbol on one side of a name. The symbol tells the kind, its side the target. -/
inductive TokenReading : String → Filter → Prop
  | plusBefore {name : String} (named : FunctionName name) :
      TokenReading ("+" ++ name) ⟨name, .formatter, .dom⟩
  | minusBefore {name : String} (named : FunctionName name) :
      TokenReading ("-" ++ name) ⟨name, .filter, .dom⟩
  | plusBehind {name : String} (named : FunctionName name) :
      TokenReading (name ++ "+") ⟨name, .formatter, .model⟩
  | minusBehind {name : String} (named : FunctionName name) :
      TokenReading (name ++ "-") ⟨name, .filter, .model⟩

/-- The error of a chain names its leftmost piece that is no token. -/
inductive ChainFault (chain : String) : DeclarationError → Prop
  | badToken {before after : List String} {token : String}
      (split : Text.pieces '|' chain = before ++ token :: after)
      (good : ∀ earlier ∈ before, FilterToken earlier) (bad : ¬FilterToken token) :
      ChainFault chain (.badFilter token)

namespace Filter

theorem tokenReading_iff {token : String} {filter : Filter} :
    TokenReading token filter ↔ filter.text = token ∧ FunctionName filter.name := by
  constructor
  · intro reading
    cases reading with
    | plusBefore named | minusBefore named | plusBehind named | minusBehind named => exact ⟨rfl, named⟩
  · obtain ⟨name, kind, target⟩ := filter
    rintro ⟨rfl, named⟩
    cases target with
    | dom =>
      cases kind with
      | formatter => exact .plusBefore named
      | filter => exact .minusBefore named
    | model =>
      cases kind with
      | formatter => exact .plusBehind named
      | filter => exact .minusBehind named

/-! ### Tokens in order -/

theorem mapM_parse_eq_ok_iff_forall₂ {tokens : List String} {filters : List Filter} :
    tokens.mapM parse = .ok filters ↔ List.Forall₂ TokenReading tokens filters := by
  have each : TokenReading = fun token filter => parse token = .ok filter := by
    funext token filter
    rw [tokenReading_iff, parse_eq_ok]
  rw [mapM_eq_ok, ← List.forall₂_eq_eq_eq, List.forall₂_map_left_iff, List.forall₂_map_right_iff, each]

theorem mapM_parse_eq_ok {tokens : List String} {filters : List Filter} :
    tokens.mapM parse = .ok filters ↔
      filters.map text = tokens ∧ ∀ filter ∈ filters, FunctionName filter.name := by
  rw [mapM_parse_eq_ok_iff_forall₂]
  constructor
  · intro readings
    induction readings with
    | nil => exact ⟨rfl, List.forall_mem_nil _⟩
    | cons reading rest ih =>
      obtain ⟨text, named⟩ := tokenReading_iff.mp reading
      obtain ⟨texts, namedRest⟩ := ih
      exact ⟨congrArg₂ List.cons text texts, List.forall_mem_cons.mpr ⟨named, namedRest⟩⟩
  · rintro ⟨rfl, named⟩
    rw [List.forall₂_map_left_iff, List.forall₂_same]
    intro filter member
    exact tokenReading_iff.mpr ⟨rfl, named filter member⟩

theorem exists_mapM_parse_eq_ok {tokens : List String} :
    (∃ filters, tokens.mapM parse = .ok filters) ↔ ∀ token ∈ tokens, FilterToken token := by
  simp only [exists_mapM_eq_ok, exists_parse_eq_ok]

theorem mapM_parse_eq_error {tokens : List String} {cause : DeclarationError} :
    tokens.mapM parse = .error cause ↔
      ∃ before token after, tokens = before ++ token :: after ∧
        (∀ earlier ∈ before, FilterToken earlier) ∧ ¬FilterToken token ∧ cause = .badFilter token := by
  simp only [mapM_eq_error, exists_parse_eq_ok, parse_eq_error]

/-! ### Chains -/

theorem parseChain_some (chain : String) :
    parseChain (some chain) = (Text.pieces '|' chain).mapM parse := rfl

theorem parseChain_eq_error {chain : String} {cause : DeclarationError} :
    parseChain (some chain) = .error cause ↔ ChainFault chain cause := by
  rw [parseChain_some, mapM_parse_eq_error]
  constructor
  · rintro ⟨before, token, after, split, good, bad, rfl⟩
    exact .badToken split good bad
  · rintro ⟨split, good, bad⟩
    exact ⟨_, _, _, split, good, bad, rfl⟩

/-- The pieces of a chain are the texts of its filters, since no text holds a bar. -/
theorem parseChain_eq_ok_iff_text {chain : String} {filters : List Filter} :
    parseChain (some chain) = .ok filters ↔
      filters ≠ [] ∧ (∀ filter ∈ filters, FunctionName filter.name) ∧
        "|".intercalate (filters.map text) = chain := by
  rw [parseChain_some, mapM_parse_eq_ok]
  constructor
  · rintro ⟨texts, named⟩
    have nonempty : filters.map text ≠ [] := texts ▸ Text.pieces_ne_nil '|' chain
    have joined := ((Text.pieces_eq_iff nonempty).mp texts.symm).1
    exact ⟨mt List.map_eq_nil_iff.mpr nonempty, named, joined.symm⟩
  · rintro ⟨nonempty, named, joined⟩
    have free : ∀ token ∈ filters.map text, '|' ∉ token.toList :=
      List.forall_mem_map.mpr fun filter member => not_mem_text (named filter member) rfl
    have pieces := (Text.pieces_eq_iff (mt List.map_eq_nil_iff.mp nonempty)).mpr ⟨joined.symm, free⟩
    exact ⟨pieces.symm, named⟩

/-- A chain is read if every piece of it is a token. Then there is one filter a piece, in the order of the
pieces and of the kind, the target and the name that the piece writes, and the filters write the chain.
Otherwise the leftmost piece that is no token is the error, as it stands. -/
theorem parseChain_classified (chain : String) :
    ((∃ filters, parseChain (some chain) = .ok filters) ↔
      ∀ piece ∈ Text.pieces '|' chain, FilterToken piece) ∧
    (∀ filters, parseChain (some chain) = .ok filters ↔
      List.Forall₂ TokenReading (Text.pieces '|' chain) filters) ∧
    (∀ filters, parseChain (some chain) = .ok filters ↔
      filters ≠ [] ∧ (∀ filter ∈ filters, FunctionName filter.name) ∧
        "|".intercalate (filters.map text) = chain) ∧
    ∀ cause, parseChain (some chain) = .error cause ↔ ChainFault chain cause := by
  refine ⟨?_, ?_, ?_, ?_⟩
  · rw [parseChain_some]
    exact exists_mapM_parse_eq_ok
  · intro filters
    rw [parseChain_some]
    exact mapM_parse_eq_ok_iff_forall₂
  · intro filters
    exact parseChain_eq_ok_iff_text
  · intro cause
    exact parseChain_eq_error

example : parseChain (some "-_1|+a|9-|+a") =
    .ok [⟨"_1", .filter, .dom⟩, ⟨"a", .formatter, .dom⟩, ⟨"9", .filter, .model⟩, ⟨"a", .formatter, .dom⟩] := by
  decide +kernel

example : parseChain (some "a+|b-\n|+c+|") = .error (.badFilter "b-\n") := by
  decide +kernel

end Filter

end DataBind
