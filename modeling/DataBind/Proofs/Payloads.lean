import DataBind.Clause
import DataBind.Proofs.FilterChains
import DataBind.Spec.Text

/-!
# Data-bound payloads

A payload is cut at its first `#` and what follows is split at the bars: a head and tokens. It is
accepted if the head is not empty and every token is a filter token; writing an accepted payload
gives it back.
-/

namespace DataBind

/-- The text after the first `#` of a payload, all of it if there is none. -/
inductive ExpressionOf (payload : String) : String → Prop
  | unqualified (free : '#' ∉ payload.toList) : ExpressionOf payload payload
  | qualified {model expression : String} (free : '#' ∉ model.toList)
      (same : payload = model ++ "#" ++ expression) : ExpressionOf payload expression

/-- The expression of a payload, and the head and the tokens that stand between its bars. -/
structure PayloadParts (payload expression head : String) (tokens : List String) : Prop where
  qualifier : ExpressionOf payload expression
  bars : expression = "|".intercalate (head :: tokens)
  free : ∀ part ∈ head :: tokens, '|' ∉ part.toList

def PayloadAccepted (payload : String) : Prop :=
  ∃ expression head tokens, PayloadParts payload expression head tokens ∧ head ≠ "" ∧
    ∀ token ∈ tokens, FilterToken token

inductive PayloadFault (payload : String) : DeclarationError → Prop
  | noAttribute {expression : String} {tokens : List String}
      (parts : PayloadParts payload expression "" tokens) :
      PayloadFault payload (.malformed expression "at least one model attribute is required")
  | badToken {expression head token : String} {before after : List String}
      (parts : PayloadParts payload expression head (before ++ token :: after)) (named : head ≠ "")
      (good : ∀ earlier ∈ before, FilterToken earlier) (bad : ¬FilterToken token) :
      PayloadFault payload (.badFilter token)

theorem modelQualifier_unqualified {payload : String} (free : '#' ∉ payload.toList) :
    modelQualifier payload = (none, payload) := by
  simp only [modelQualifier, Text.cutAt_eq_none.mpr free]

theorem modelQualifier_qualified {model : String} (free : '#' ∉ model.toList) (expression : String) :
    modelQualifier (model ++ "#" ++ expression) = (some model, expression) := by
  have cut : Text.cutAt '#' (model ++ "#" ++ expression) = some (model, expression) :=
    Text.cutAt_eq_some.mpr ⟨rfl, free⟩
  simp only [modelQualifier, cut]

theorem payload_cases (payload : String) :
    '#' ∉ payload.toList ∨
      ∃ model expression : String, '#' ∉ model.toList ∧ payload = model ++ "#" ++ expression := by
  cases cut : Text.cutAt '#' payload with
  | none => exact .inl (Text.cutAt_eq_none.mp cut)
  | some parts =>
    obtain ⟨same, free⟩ := Text.cutAt_eq_some.mp cut
    exact .inr ⟨parts.1, parts.2, free, same⟩

theorem expressionOf_iff {payload expression : String} :
    ExpressionOf payload expression ↔ (modelQualifier payload).2 = expression := by
  constructor
  · rintro (free | ⟨free, rfl⟩)
    · rw [modelQualifier_unqualified free]
    · rw [modelQualifier_qualified free]
  · rintro rfl
    rcases payload_cases payload with free | ⟨model, expression, free, rfl⟩
    · rw [modelQualifier_unqualified free]
      exact .unqualified free
    · rw [modelQualifier_qualified free]
      exact .qualified free rfl

theorem modelQualifier_text (payload : String) :
    (match (modelQualifier payload).1 with
      | some model => model ++ "#"
      | none => "") ++ (modelQualifier payload).2 = payload := by
  rcases payload_cases payload with free | ⟨model, expression, free, rfl⟩
  · rw [modelQualifier_unqualified free, String.empty_append]
  · rw [modelQualifier_qualified free]

theorem payloadParts_iff {payload expression head : String} {tokens : List String} :
    PayloadParts payload expression head tokens ↔
      (modelQualifier payload).2 = expression ∧ Text.pieces '|' expression = head :: tokens := by
  have split : Text.pieces '|' expression = head :: tokens ↔ _ :=
    Text.pieces_eq_iff (List.cons_ne_nil head tokens)
  constructor
  · intro parts
    exact ⟨expressionOf_iff.mp parts.qualifier, split.mpr ⟨parts.bars, parts.free⟩⟩
  · rintro ⟨qualifier, pieces⟩
    obtain ⟨bars, free⟩ := split.mp pieces
    exact ⟨expressionOf_iff.mpr qualifier, bars, free⟩

theorem exists_payloadParts (payload : String) :
    ∃ expression head tokens, PayloadParts payload expression head tokens := by
  obtain ⟨head, tokens, same⟩ :=
    List.exists_cons_of_ne_nil (Text.pieces_ne_nil '|' (modelQualifier payload).2)
  exact ⟨_, head, tokens, payloadParts_iff.mpr ⟨rfl, same⟩⟩

namespace DataBound

/-- A payload is read part by part: the head is looked at first, then the tokens in order. -/
theorem parse_of_parts {payload expression head : String} {tokens : List String}
    (parts : PayloadParts payload expression head tokens) :
    parse payload =
      if head = "" then .error (.malformed expression "at least one model attribute is required")
      else (tokens.mapM Filter.parse).map fun filters =>
        ⟨(modelQualifier payload).1, Text.pieces '+' head, filters⟩ := by
  obtain ⟨rfl, pieces⟩ := payloadParts_iff.mp parts
  cases cut : Text.cutAt '|' (modelQualifier payload).2 with
  | none =>
    rw [Text.pieces_of_not_mem (Text.cutAt_eq_none.mp cut)] at pieces
    obtain ⟨rfl, rfl⟩ := List.cons.inj pieces
    simp only [parse, AttributeList.parse, cut, AttributeList.ofNames]
    split
    · rfl
    · rfl
  | some parts =>
    obtain ⟨names, chain⟩ := parts
    rw [Text.pieces_eq_of_cutAt cut] at pieces
    obtain ⟨rfl, rfl⟩ := List.cons.inj pieces
    simp only [parse, AttributeList.parse, cut, AttributeList.ofNames]
    split
    · rfl
    · rfl

theorem parse_eq_ok {payload : String} {data : DataBound} :
    parse payload = .ok data ↔
      ∃ expression head tokens filters, PayloadParts payload expression head tokens ∧ head ≠ "" ∧
        tokens.mapM Filter.parse = .ok filters ∧
        data = ⟨(modelQualifier payload).1, Text.pieces '+' head, filters⟩ := by
  constructor
  · intro h
    obtain ⟨expression, head, tokens, parts⟩ := exists_payloadParts payload
    rw [parse_of_parts parts] at h
    split at h
    · cases h
    · rename_i named
      obtain ⟨filters, read, rfl⟩ := map_eq_ok.mp h
      exact ⟨expression, head, tokens, filters, parts, named, read, rfl⟩
  · rintro ⟨expression, head, tokens, filters, parts, named, read, rfl⟩
    rw [parse_of_parts parts, if_neg named, read]
    rfl

theorem exists_parse_eq_ok {payload : String} :
    (∃ data, parse payload = .ok data) ↔ PayloadAccepted payload := by
  constructor
  · rintro ⟨data, h⟩
    obtain ⟨expression, head, tokens, filters, parts, named, read, -⟩ := parse_eq_ok.mp h
    have good := Filter.exists_mapM_parse_eq_ok.mp ⟨filters, read⟩
    exact ⟨expression, head, tokens, parts, named, good⟩
  · rintro ⟨expression, head, tokens, parts, named, good⟩
    obtain ⟨filters, read⟩ := Filter.exists_mapM_parse_eq_ok.mpr good
    exact ⟨_, parse_eq_ok.mpr ⟨expression, head, tokens, filters, parts, named, read, rfl⟩⟩

theorem parse_eq_error {payload : String} {cause : DeclarationError} :
    parse payload = .error cause ↔ PayloadFault payload cause := by
  constructor
  · intro h
    obtain ⟨expression, head, tokens, parts⟩ := exists_payloadParts payload
    rw [parse_of_parts parts] at h
    split at h
    · rename_i empty
      cases h
      exact .noAttribute (empty ▸ parts)
    · rename_i named
      obtain ⟨before, token, after, rfl, good, bad, rfl⟩ :=
        Filter.mapM_parse_eq_error.mp (map_eq_error.mp h)
      exact .badToken parts named good bad
  · intro fault
    cases fault with
    | noAttribute parts => rw [parse_of_parts parts, if_pos rfl]
    | badToken parts named good bad =>
      rw [parse_of_parts parts, if_neg named, map_eq_error]
      exact Filter.mapM_parse_eq_error.mpr ⟨_, _, _, rfl, good, bad, rfl⟩

theorem intercalate_cons_eq_join (sep head : String) (tail : List String) :
    sep.intercalate (head :: tail) = head ++ String.join (tail.map (sep ++ ·)) := by
  induction tail generalizing head with
  | nil => simp
  | cons next tail ih => rw [String.intercalate_cons_cons, ih]; simp [String.append_assoc]

/-- Writing an accepted payload gives it back character for character. -/
theorem text_of_parse {payload : String} {data : DataBound} (h : parse payload = .ok data) :
    data.text = payload := by
  obtain ⟨expression, head, tokens, filters, parts, -, read, rfl⟩ := parse_eq_ok.mp h
  obtain ⟨qualifier, -⟩ := payloadParts_iff.mp parts
  have texts : filters.map Filter.text = tokens := (Filter.mapM_parse_eq_ok.mp read).1
  have bars : String.join (filters.map fun filter => "|" ++ filter.text) =
      String.join (tokens.map ("|" ++ ·)) := by
    rw [← texts, List.map_map]
    rfl
  have names : "+".intercalate (Text.pieces '+' head) = head := Text.intercalate_pieces '+' head
  rw [text, names, bars, String.append_assoc, ← intercalate_cons_eq_join, ← parts.bars, ← qualifier]
  exact modelQualifier_text payload

end DataBound

end DataBind
