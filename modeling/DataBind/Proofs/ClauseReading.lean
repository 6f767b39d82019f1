import DataBind.Proofs.ClauseSplitting
import DataBind.Proofs.Payloads
import DataBind.Proofs.SpecEntries

/-!
# Compiling clause by clause

What a clause gives does not depend on the specification it is read into: compiling reads the plain
clauses in order, each to one entry, and inserts the entries. An entry is written as its clause.
-/

namespace DataBind

/-- The entry of one clause. -/
def readClause (options : CompileOptions) (clause : String) :
    Except DeclarationError (String × Operand) :=
  match Text.pieces ':' clause with
  | [name, payload] => (Operand.parse options name payload).map fun operand => (name, operand)
  | parts =>
    .error (.malformed clause
      ("expected exactly one ':' separator, found " ++ toString (parts.length - 1)))

theorem addClause_eq (options : CompileOptions) (spec : Spec) (clause : String) :
    spec.addClause options clause =
      (readClause options clause).map fun entry => spec.insert entry.1 entry.2 := by
  unfold Spec.addClause readClause
  match Text.pieces ':' clause with
  | [] => rfl
  | [_] => rfl
  | [name, payload] =>
    dsimp only
    cases Operand.parse options name payload <;> rfl
  | _ :: _ :: _ :: _ => rfl

theorem foldlM_addClause (options : CompileOptions) (spec : Spec) (clauses : List String) :
    clauses.foldlM (Spec.addClause options) spec =
      (clauses.mapM (readClause options)).map spec.insertAll := by
  -- Each clause is read into another specification, so the induction is over all of them.
  induction clauses generalizing spec with
  | nil => rfl
  | cons clause clauses ih =>
    rw [List.foldlM_cons, List.mapM_cons, addClause_eq]
    cases readClause options clause with
    | error cause => rfl
    | ok entry =>
      have rest := ih (spec.insert entry.1 entry.2)
      cases read : clauses.mapM (readClause options) with
      | error cause =>
        rw [read] at rest
        exact rest
      | ok entries =>
        rw [read] at rest
        exact rest

/-! ### One clause -/

theorem clause_cases (clause : String) :
    clause.toList.count ':' ≠ 1 ∨
      ∃ name payload : String, ':' ∉ name.toList ∧ ':' ∉ payload.toList ∧
        clause = name ++ ":" ++ payload := by
  by_cases one : clause.toList.count ':' = 1
  · have two : (Text.pieces ':' clause).length = 2 := by rw [Text.length_pieces, one]
    obtain ⟨name, payload, same⟩ := List.length_eq_two.mp two
    obtain ⟨joined, free⟩ := (Text.pieces_eq_iff (List.cons_ne_nil _ _)).mp same
    refine .inr ⟨name, payload, free name (by simp), free payload (by simp), ?_⟩
    rw [joined, String.intercalate_cons_cons, String.intercalate_singleton]
    rfl
  · exact .inl one

theorem readClause_of_count {clause : String} (h : clause.toList.count ':' ≠ 1)
    (options : CompileOptions) :
    readClause options clause =
      .error (.malformed clause
        ("expected exactly one ':' separator, found " ++ toString (clause.toList.count ':'))) := by
  have length := Text.length_pieces ':' clause
  have count : clause.toList.count ':' = (Text.pieces ':' clause).length - 1 := by omega
  unfold readClause
  split
  · rename_i name payload same
    simp only [same, List.length_cons, List.length_nil] at length
    omega
  · rw [count]

theorem readClause_of_colon {name payload : String} (freeName : ':' ∉ name.toList)
    (freePayload : ':' ∉ payload.toList) (options : CompileOptions) :
    readClause options (name ++ ":" ++ payload) =
      (Operand.parse options name payload).map fun operand => (name, operand) := by
  have pieces : Text.pieces ':' (name ++ ":" ++ payload) = [name, payload] := by
    refine (Text.pieces_eq_iff (List.cons_ne_nil _ _)).mpr ⟨?_, ?_⟩
    · rw [String.intercalate_cons_cons, String.intercalate_singleton]
      rfl
    · simpa using ⟨freeName, freePayload⟩
  simp only [readClause, pieces]

theorem readClause_eq_ok {options : CompileOptions} {clause : String} {entry : String × Operand} :
    readClause options clause = .ok entry ↔
      ∃ payload : String, ':' ∉ entry.1.toList ∧ ':' ∉ payload.toList ∧
        clause = entry.1 ++ ":" ++ payload ∧ Operand.parse options entry.1 payload = .ok entry.2 := by
  constructor
  · intro h
    rcases clause_cases clause with count | ⟨name, payload, freeName, freePayload, rfl⟩
    · rw [readClause_of_count count] at h
      cases h
    · rw [readClause_of_colon freeName freePayload] at h
      obtain ⟨operand, parsed, rfl⟩ := map_eq_ok.mp h
      exact ⟨payload, freeName, freePayload, rfl, parsed⟩
  · rintro ⟨payload, freeName, freePayload, rfl, parsed⟩
    rw [readClause_of_colon freeName freePayload, parsed]
    rfl

/-- A payload has at least one piece, so the events are never refused. -/
theorem eventTypes_eq (payload : String) : eventTypes payload = .ok (Text.pieces '+' payload) := by
  unfold eventTypes
  cases pieces : Text.pieces '+' payload with
  | nil => exact absurd pieces (Text.pieces_ne_nil '+' payload)
  | cons type types => rfl

theorem Operand.text_of_parse {options : CompileOptions} {name payload : String} {operand : Operand}
    (h : Operand.parse options name payload = .ok operand) : operand.text = payload := by
  have names : "+".intercalate (Text.pieces '+' payload) = payload := Text.intercalate_pieces '+' payload
  unfold Operand.parse at h
  split at h
  · rw [eventTypes_eq] at h
    cases h
    exact names
  · split at h
    · split at h
      · obtain ⟨data, -, rfl⟩ := map_eq_ok.mp h
        exact names
      · cases h
        exact names
    · obtain ⟨data, read, rfl⟩ := map_eq_ok.mp h
      exact DataBound.text_of_parse read

/-- The clause that an entry is written as. -/
def entryText (entry : String × Operand) : String :=
  entry.1 ++ ":" ++ entry.2.text

theorem text_eq_intercalate (spec : Spec) :
    spec.text = ",".intercalate (spec.entries.map entryText) := rfl

/-- Reading a clause and writing the entry gives the clause back. -/
theorem entryText_of_readClause {options : CompileOptions} {clause : String}
    {entry : String × Operand} (h : readClause options clause = .ok entry) :
    entryText entry = clause := by
  obtain ⟨payload, -, -, rfl, parsed⟩ := readClause_eq_ok.mp h
  rw [entryText, Operand.text_of_parse parsed]

/-! ### Declarations -/

theorem compile_blank {declaration : String} (blank : Text.trim declaration.toList = [])
    (options : CompileOptions) : compile options declaration = .error (.empty declaration) := by
  rw [compile, blank]

theorem compile_eq {declaration : String} (nonblank : Text.trim declaration.toList ≠ [])
    (options : CompileOptions) :
    compile options declaration =
      ((plainClauses declaration).mapM (readClause options)).map Spec.empty.insertAll := by
  unfold compile
  split
  · rename_i blank
    exact absurd blank nonblank
  · rw [clauses_trim, foldlM_addClause]

theorem compile_eq_ok {options : CompileOptions} {declaration : String} {spec : Spec} :
    compile options declaration = .ok spec ↔
      Text.trim declaration.toList ≠ [] ∧
        ∃ entries, (plainClauses declaration).mapM (readClause options) = .ok entries ∧
          Spec.empty.insertAll entries = spec := by
  by_cases blank : Text.trim declaration.toList = []
  · simp [compile_blank blank, blank]
  · rw [compile_eq blank, map_eq_ok]
    simp [blank]

end DataBind
