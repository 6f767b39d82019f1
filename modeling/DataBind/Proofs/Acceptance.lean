import DataBind.Proofs.ClauseReading

/-!
# Which declarations are accepted

A declaration is accepted if it is not blank and each of its plain clauses is well formed. A refused
one is refused for its leftmost bad clause, and a clause for its colons first, then for its head, then
for its leftmost bad token. `ClauseAccepted` and `DeclarationFault` say so without the compiler.
-/

namespace DataBind

/-- Operands whose payload has to be data bound. -/
def ReadsDataBound (options : CompileOptions) (name : String) : Prop :=
  name ≠ "events" ∧ (name = "model" → options.legacyModelFallthrough = true)

def ClauseAccepted (options : CompileOptions) (clause : String) : Prop :=
  ∃ name payload : String, ':' ∉ name.toList ∧ ':' ∉ payload.toList ∧
    clause = name ++ ":" ++ payload ∧ (ReadsDataBound options name → PayloadAccepted payload)

inductive ClauseFault (options : CompileOptions) (clause : String) : DeclarationError → Prop
  | colons (count : clause.toList.count ':' ≠ 1) :
      ClauseFault options clause (.malformed clause
        ("expected exactly one ':' separator, found " ++ toString (clause.toList.count ':')))
  | payload {name payload : String} {cause : DeclarationError} (freeName : ':' ∉ name.toList)
      (freePayload : ':' ∉ payload.toList) (same : clause = name ++ ":" ++ payload)
      (reads : ReadsDataBound options name) (fault : PayloadFault payload cause) :
      ClauseFault options clause cause

/-- The error of a declaration: it is blank, or this is the fault of its leftmost bad clause. -/
inductive DeclarationFault (options : CompileOptions) (declaration : String) :
    DeclarationError → Prop
  | blank (blank : Text.trim declaration.toList = []) :
      DeclarationFault options declaration (.empty declaration)
  | clause {before after : List String} {clause : String} {cause : DeclarationError}
      (nonblank : Text.trim declaration.toList ≠ [])
      (split : plainClauses declaration = before ++ clause :: after)
      (good : ∀ earlier ∈ before, ClauseAccepted options earlier)
      (bad : ClauseFault options clause cause) : DeclarationFault options declaration cause

/-- The part of the declaration that an error shows. -/
def DeclarationError.shown : DeclarationError → String
  | empty declaration => declaration
  | malformed clause _ => clause
  | badFilter token => token
  | noEvents payload => payload

/-! ### Operands -/

theorem Operand.parse_of_reads {options : CompileOptions} {name : String}
    (reads : ReadsDataBound options name) (payload : String) :
    ∃ wrap : DataBound → Operand,
      parse options name payload = (DataBound.parse payload).map wrap := by
  obtain ⟨notEvents, legacy⟩ := reads
  rw [parse, if_neg notEvents]
  by_cases model : name = "model"
  · rw [if_pos model, if_pos (legacy model)]
    exact ⟨_, rfl⟩
  · rw [if_neg model]
    exact ⟨_, rfl⟩

theorem Operand.parse_of_not_reads {options : CompileOptions} {name : String}
    (free : ¬ReadsDataBound options name) (payload : String) :
    ∃ operand, parse options name payload = .ok operand := by
  unfold parse
  by_cases events : name = "events"
  · rw [if_pos events, eventTypes_eq]
    exact ⟨_, rfl⟩
  · have model : name = "model" ∧ options.legacyModelFallthrough ≠ true := by
      by_contra h
      exact free ⟨events, fun same => by_contra fun off => h ⟨same, off⟩⟩
    rw [if_neg events, if_pos model.1, if_neg model.2]
    exact ⟨_, rfl⟩

theorem Operand.exists_parse_eq_ok {options : CompileOptions} {name payload : String} :
    (∃ operand, parse options name payload = .ok operand) ↔
      (ReadsDataBound options name → PayloadAccepted payload) := by
  by_cases reads : ReadsDataBound options name
  · obtain ⟨wrap, same⟩ := parse_of_reads reads payload
    rw [same, ← DataBound.exists_parse_eq_ok]
    simp [map_eq_ok, reads]
  · have accepted := parse_of_not_reads reads payload
    exact iff_of_true accepted fun h => absurd h reads

theorem Operand.parse_eq_error {options : CompileOptions} {name payload : String}
    {cause : DeclarationError} :
    parse options name payload = .error cause ↔
      ReadsDataBound options name ∧ PayloadFault payload cause := by
  by_cases reads : ReadsDataBound options name
  · obtain ⟨wrap, same⟩ := parse_of_reads reads payload
    rw [same, map_eq_error, DataBound.parse_eq_error]
    exact (and_iff_right reads).symm
  · obtain ⟨operand, accepted⟩ := parse_of_not_reads reads payload
    simp [accepted, reads]

/-! ### Clauses -/

theorem exists_readClause_eq_ok {options : CompileOptions} {clause : String} :
    (∃ entry, readClause options clause = .ok entry) ↔ ClauseAccepted options clause := by
  constructor
  · rintro ⟨entry, h⟩
    obtain ⟨payload, freeName, freePayload, rfl, parsed⟩ := readClause_eq_ok.mp h
    have accepted := Operand.exists_parse_eq_ok.mp ⟨entry.2, parsed⟩
    exact ⟨entry.1, payload, freeName, freePayload, rfl, accepted⟩
  · rintro ⟨name, payload, freeName, freePayload, rfl, accepted⟩
    obtain ⟨operand, parsed⟩ := Operand.exists_parse_eq_ok.mpr accepted
    exact ⟨(name, operand), readClause_eq_ok.mpr ⟨payload, freeName, freePayload, rfl, parsed⟩⟩

theorem readClause_eq_error {options : CompileOptions} {clause : String} {cause : DeclarationError} :
    readClause options clause = .error cause ↔ ClauseFault options clause cause := by
  constructor
  · intro h
    rcases clause_cases clause with count | ⟨name, payload, freeName, freePayload, rfl⟩
    · rw [readClause_of_count count] at h
      cases h
      exact .colons count
    · rw [readClause_of_colon freeName freePayload, map_eq_error] at h
      obtain ⟨reads, fault⟩ := Operand.parse_eq_error.mp h
      exact .payload freeName freePayload rfl reads fault
  · intro fault
    cases fault with
    | colons count => exact readClause_of_count count options
    | payload freeName freePayload same reads fault =>
      rw [same, readClause_of_colon freeName freePayload, map_eq_error]
      exact Operand.parse_eq_error.mpr ⟨reads, fault⟩

/-! ### What an error shows -/

theorem ExpressionOf.isInfix {payload expression : String} (h : ExpressionOf payload expression) :
    expression.toList <:+: payload.toList := by
  cases h with
  | unqualified free => exact List.infix_rfl
  | qualified free same =>
    rw [same, String.toList_append]
    exact (List.suffix_append _ _).isInfix

theorem PayloadFault.shown_isInfix {payload : String} {cause : DeclarationError}
    (fault : PayloadFault payload cause) : cause.shown.toList <:+: payload.toList := by
  cases fault with
  | noAttribute parts => exact parts.qualifier.isInfix
  | @badToken expression head token before after parts named good bad =>
    have member : token ∈ Text.pieces '|' expression := by
      rw [(payloadParts_iff.mp parts).2]
      simp
    exact (Text.isInfix_of_mem_pieces member).trans parts.qualifier.isInfix

theorem ClauseFault.shown_isInfix {options : CompileOptions} {clause : String}
    {cause : DeclarationError} (fault : ClauseFault options clause cause) :
    cause.shown.toList <:+: clause.toList := by
  cases fault with
  | colons count => exact List.infix_rfl
  | payload freeName freePayload same reads fault =>
    rw [same, String.toList_append]
    exact fault.shown_isInfix.trans (List.suffix_append _ _).isInfix

theorem DeclarationFault.shown_isInfix {options : CompileOptions} {declaration : String}
    {cause : DeclarationError} (fault : DeclarationFault options declaration cause) :
    cause.shown.toList <:+: declaration.toList := by
  cases fault with
  | blank blank => exact List.infix_rfl
  | @clause before after clause cause nonblank split good bad =>
    have member : clause ∈ plainClauses declaration := by
      rw [split]
      simp
    exact bad.shown_isInfix.trans (isInfix_of_mem_plainClauses member)

theorem DeclarationFault.ne_noEvents {options : CompileOptions} {declaration : String}
    {cause : DeclarationError} (fault : DeclarationFault options declaration cause) (payload : String) :
    cause ≠ .noEvents payload := by
  rintro rfl
  cases fault with
  | clause nonblank split good bad =>
    cases bad with
    | payload freeName freePayload same reads fault => cases fault

/-! ### Declarations -/

theorem exists_compile_eq_ok {options : CompileOptions} {declaration : String} :
    (∃ spec, compile options declaration = .ok spec) ↔
      Text.trim declaration.toList ≠ [] ∧
        ∀ clause ∈ plainClauses declaration, ClauseAccepted options clause := by
  simp only [compile_eq_ok, ← exists_readClause_eq_ok, ← exists_mapM_eq_ok]
  constructor
  · rintro ⟨spec, nonblank, entries, read, -⟩
    exact ⟨nonblank, entries, read⟩
  · rintro ⟨nonblank, entries, read⟩
    exact ⟨_, nonblank, entries, read, rfl⟩

theorem compile_eq_error {options : CompileOptions} {declaration : String}
    {cause : DeclarationError} :
    compile options declaration = .error cause ↔ DeclarationFault options declaration cause := by
  by_cases blank : Text.trim declaration.toList = []
  · rw [compile_blank blank]
    constructor
    · intro h
      cases h
      exact .blank blank
    · intro fault
      cases fault with
      | blank => rfl
      | clause nonblank => exact absurd blank nonblank
  · rw [compile_eq blank, map_eq_error, mapM_eq_error]
    constructor
    · rintro ⟨before, clause, after, split, good, refused⟩
      exact .clause blank split (fun earlier member => exists_readClause_eq_ok.mp (good earlier member))
        (readClause_eq_error.mp refused)
    · intro fault
      cases fault with
      | blank h => exact absurd h blank
      | clause nonblank split good bad =>
        exact ⟨_, _, _, split, fun earlier member => exists_readClause_eq_ok.mpr (good earlier member),
          readClause_eq_error.mpr bad⟩

/-- The compiler accepts exactly the declarations that are not blank and have only accepted clauses,
and refuses every other one with the fault of its leftmost bad clause. What the error shows stands in
the declaration. -/
theorem compile_accepts_or_faults (options : CompileOptions) (declaration : String) :
    ((∃ spec, compile options declaration = .ok spec) ↔
      Text.trim declaration.toList ≠ [] ∧
        ∀ clause ∈ plainClauses declaration, ClauseAccepted options clause) ∧
    (∀ cause, compile options declaration = .error cause ↔
      DeclarationFault options declaration cause) ∧
    ∀ cause, compile options declaration = .error cause →
      cause.shown.toList <:+: declaration.toList ∧ ∀ payload, cause ≠ .noEvents payload := by
  refine ⟨exists_compile_eq_ok, fun _ => compile_eq_error, fun cause refused => ?_⟩
  have fault := compile_eq_error.mp refused
  exact ⟨fault.shown_isInfix, fault.ne_noEvents⟩

end DataBind
