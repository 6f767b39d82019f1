import DataBind.Binding.Lower
import DataBind.Proofs.Acceptance

/-!
# Legacy readings

On request the payload of every `model` clause is also read as data bound. A declaration that is
accepted so is accepted without, and but for the readings that are kept it compiles to the same. Nothing
else is refused than `model` clauses whose payload is not data bound, and those that are superseded count
as well.
-/

namespace DataBind

/-- The payload of a clause that names the operand `model`. -/
def modelPayload? (clause : String) : Option String :=
  match Text.pieces ':' clause with
  | [name, payload] => if name = "model" then some payload else none
  | _ => none

/-- Why a `model` clause is refused if its payload has to be data bound. -/
def modelRefusal? (clause : String) : Option DeclarationError :=
  (modelPayload? clause).bind fun payload =>
    match DataBound.parse payload with
    | .ok _ => none
    | .error cause => some cause

def Operand.withoutLegacy : Operand → Operand
  | model names _ => model names none
  | operand => operand

def Spec.withoutLegacy (spec : Spec) : Spec :=
  ⟨spec.entries.map fun entry => (entry.1, entry.2.withoutLegacy)⟩

/-! ### Specifications without legacy readings -/

theorem Operand.text_withoutLegacy (operand : Operand) : operand.withoutLegacy.text = operand.text := by
  cases operand <;> rfl

theorem Operand.lower_withoutLegacy (name : String) (operand : Operand) :
    operand.withoutLegacy.lower name = operand.lower name := by
  cases operand <;> rfl

namespace Spec

theorem text_withoutLegacy (spec : Spec) : spec.withoutLegacy.text = spec.text := by
  have same : spec.withoutLegacy.entries.map entryText = spec.entries.map entryText := by
    rw [withoutLegacy, List.map_map]
    refine List.map_congr_left fun entry _ => ?_
    rw [Function.comp_apply, entryText, entryText, Operand.text_withoutLegacy]
  rw [text_eq_intercalate, text_eq_intercalate, same]

theorem lower_withoutLegacy (spec : Spec) : spec.withoutLegacy.lower = spec.lower := by
  rw [lower, withoutLegacy, List.foldl_map]
  simp only [Operand.lower_withoutLegacy]
  rfl

theorem exchangeEntry_withoutLegacy (name : String) (operand : Operand)
    (entries : List (String × Operand)) :
    (exchangeEntry name operand.withoutLegacy
        (entries.map fun entry => (entry.1, entry.2.withoutLegacy))).2 =
      (exchangeEntry name operand entries).2.map fun entry => (entry.1, entry.2.withoutLegacy) := by
  induction entries with
  | nil => rfl
  | cons head rest ih =>
    obtain ⟨other, old⟩ := head
    by_cases same : other = name
    · simp [exchangeEntry, same]
    · simp [exchangeEntry, same, ih]

theorem insertAll_withoutLegacy (spec : Spec) (entries : List (String × Operand)) :
    spec.withoutLegacy.insertAll (entries.map fun entry => (entry.1, entry.2.withoutLegacy)) =
      (spec.insertAll entries).withoutLegacy := by
  induction entries generalizing spec with
  | nil => rfl
  | cons entry entries ih =>
    have first : spec.withoutLegacy.insert entry.1 entry.2.withoutLegacy =
        (spec.insert entry.1 entry.2).withoutLegacy :=
      congrArg Spec.mk (exchangeEntry_withoutLegacy entry.1 entry.2 spec.entries)
    rw [List.map_cons, insertAll_cons, insertAll_cons, first, ih]

end Spec

/-! ### Clauses -/

/-- A `model` clause that is refused for its legacy reading is accepted without it. -/
theorem readClause_of_refusal {clause : String} {cause : DeclarationError}
    (refused : modelRefusal? clause = some cause) :
    readClause ⟨true⟩ clause = .error cause ∧ ∃ entry, readClause ⟨false⟩ clause = .ok entry := by
  obtain ⟨payload, named, rejected⟩ := Option.bind_eq_some_iff.mp refused
  unfold modelPayload? at named
  unfold readClause
  match parts : Text.pieces ':' clause with
  | [name, rest] =>
    simp only [parts, Option.ite_none_right_eq_some, Option.some.injEq] at named
    obtain ⟨rfl, rfl⟩ := named
    cases parsed : DataBound.parse rest with
    | ok data => simp [parsed] at rejected
    | error other =>
      obtain rfl : other = cause := by simpa [parsed] using rejected
      exact ⟨by simp [Operand.parse, parsed, Except.map], ("model", .model (modelNames rest) none), rfl⟩
  | [] => simp [parts] at named
  | [_] => simp [parts] at named
  | _ :: _ :: _ :: _ => simp [parts] at named

/-- Any other clause is read alike but for the reading that is kept. -/
theorem readClause_of_no_refusal {clause : String} (accepted : modelRefusal? clause = none) :
    (readClause ⟨true⟩ clause).map (fun entry => (entry.1, entry.2.withoutLegacy)) =
      readClause ⟨false⟩ clause := by
  unfold modelRefusal? modelPayload? at accepted
  unfold readClause
  match parts : Text.pieces ':' clause with
  | [] => rfl
  | [_] => rfl
  | _ :: _ :: _ :: _ => rfl
  | [name, payload] =>
    simp only [parts] at accepted
    dsimp only
    unfold Operand.parse
    by_cases events : name = "events"
    · rw [if_pos events, if_pos events, eventTypes_eq]
      rfl
    · rw [if_neg events, if_neg events]
      by_cases model : name = "model"
      · rw [if_pos model, if_pos model]
        rw [if_pos model, Option.bind_some] at accepted
        cases parsed : DataBound.parse payload with
        | ok data => rfl
        | error cause => simp [parsed] at accepted
      · rw [if_neg model, if_neg model]
        cases DataBound.parse payload <;> rfl

theorem exists_readClause_legacy {clause : String} :
    (∃ entry, readClause ⟨true⟩ clause = .ok entry) ↔
      (∃ entry, readClause ⟨false⟩ clause = .ok entry) ∧ modelRefusal? clause = none := by
  cases refused : modelRefusal? clause with
  | some cause => simp [(readClause_of_refusal refused).1]
  | none =>
    rw [← readClause_of_no_refusal refused]
    simp [map_eq_ok]

/-! ### Lists of clauses -/

theorem mapM_legacy_eq_ok {clauses : List String} {entries : List (String × Operand)}
    (read : clauses.mapM (readClause ⟨true⟩) = .ok entries) :
    clauses.mapM (readClause ⟨false⟩) =
      .ok (entries.map fun entry => (entry.1, entry.2.withoutLegacy)) := by
  induction clauses generalizing entries with
  | nil =>
    cases read
    rfl
  | cons clause clauses ih =>
    rw [mapM_eq_ok] at read ⊢
    cases entries with
    | nil => cases read
    | cons entry entries =>
      obtain ⟨first, rest⟩ := List.cons.inj read
      have none : modelRefusal? clause = none := (exists_readClause_legacy.mp ⟨entry, first⟩).2
      have later := mapM_eq_ok.mp (ih (mapM_eq_ok.mpr rest))
      rw [List.map_cons, List.map_cons, List.map_cons, ← readClause_of_no_refusal none, first, later]
      rfl

/-- The leftmost refused `model` clause among accepted ones is the error. -/
theorem mapM_legacy_eq_error {clauses : List String} {cause : DeclarationError} (behind : List String)
    (good : ∀ clause ∈ clauses, ∃ entry, readClause ⟨false⟩ clause = .ok entry)
    (refused : clauses.findSome? modelRefusal? = some cause) :
    (clauses ++ behind).mapM (readClause ⟨true⟩) = .error cause := by
  obtain ⟨before, clause, after, rfl, here, free⟩ := List.findSome?_eq_some_iff.mp refused
  refine mapM_eq_error.mpr ⟨before, clause, after ++ behind, by simp, fun earlier member => ?_,
    (readClause_of_refusal here).1⟩
  exact exists_readClause_legacy.mpr ⟨good earlier (by simp [member]), free earlier member⟩

theorem findSome?_modelRefusal_eq_none {clauses : List String} :
    clauses.findSome? modelRefusal? = none ↔
      ∀ clause ∈ clauses, ∀ payload, modelPayload? clause = some payload →
        ∃ data, DataBound.parse payload = .ok data := by
  rw [List.findSome?_eq_none_iff]
  refine forall₂_congr fun clause _ => ?_
  rw [modelRefusal?, Option.bind_eq_none_iff]
  refine forall₂_congr fun payload _ => ?_
  cases DataBound.parse payload <;> simp

/-! ### Declarations -/

theorem compile_of_legacy {declaration : String} {spec : Spec}
    (h : compile ⟨true⟩ declaration = .ok spec) :
    compile ⟨false⟩ declaration = .ok spec.withoutLegacy := by
  obtain ⟨shown, entries, read, rfl⟩ := compile_eq_ok.mp h
  exact compile_eq_ok.mpr ⟨shown, _, mapM_legacy_eq_ok read, Spec.insertAll_withoutLegacy Spec.empty entries⟩

theorem exists_compile_legacy {declaration : String} {spec : Spec}
    (h : compile ⟨false⟩ declaration = .ok spec) :
    (∃ kept, compile ⟨true⟩ declaration = .ok kept) ↔
      (plainClauses declaration).findSome? modelRefusal? = none := by
  obtain ⟨shown, entries, read, -⟩ := compile_eq_ok.mp h
  have good := exists_mapM_eq_ok.mp ⟨entries, read⟩
  constructor
  · rintro ⟨kept, compiled⟩
    obtain ⟨-, entries, read, -⟩ := compile_eq_ok.mp compiled
    refine List.findSome?_eq_none_iff.mpr fun clause member => ?_
    exact (exists_readClause_legacy.mp (exists_mapM_eq_ok.mp ⟨entries, read⟩ clause member)).2
  · intro free
    obtain ⟨entries, read⟩ := exists_mapM_eq_ok.mpr fun clause member =>
      exists_readClause_legacy.mpr ⟨good clause member, List.findSome?_eq_none_iff.mp free clause member⟩
    exact ⟨_, compile_eq_ok.mpr ⟨shown, entries, read, rfl⟩⟩

theorem compile_legacy_of_refusal {declaration : String} {before after : List String}
    {cause : DeclarationError} (shown : Text.trim declaration.toList ≠ [])
    (split : plainClauses declaration = before ++ after)
    (good : ∀ clause ∈ before, ∃ entry, readClause ⟨false⟩ clause = .ok entry)
    (refused : before.findSome? modelRefusal? = some cause) :
    compile ⟨true⟩ declaration = .error cause := by
  rw [compile_eq shown, split, mapM_legacy_eq_error after good refused]
  rfl

/-- A `model` clause that is refused before the failing clause comes first, no other one matters. -/
theorem compile_legacy_of_error {declaration clause : String} {before after : List String}
    {cause : DeclarationError} (shown : Text.trim declaration.toList ≠ [])
    (split : plainClauses declaration = before ++ clause :: after)
    (good : ∀ earlier ∈ before, ClauseAccepted ⟨false⟩ earlier) (bad : ClauseFault ⟨false⟩ clause cause) :
    compile ⟨true⟩ declaration = .error ((before.findSome? modelRefusal?).getD cause) := by
  have read : ∀ earlier ∈ before, ∃ entry, readClause ⟨false⟩ earlier = .ok entry :=
    fun earlier member => exists_readClause_eq_ok.mpr (good earlier member)
  have failed := readClause_eq_error.mpr bad
  cases refused : before.findSome? modelRefusal? with
  | some other => exact compile_legacy_of_refusal shown split read refused
  | none =>
    have free : modelRefusal? clause = none := by
      cases here : modelRefusal? clause with
      | none => rfl
      | some other =>
        obtain ⟨entry, accepted⟩ := (readClause_of_refusal here).2
        rw [failed] at accepted
        cases accepted
    have still : readClause ⟨true⟩ clause = .error cause := by
      have same := readClause_of_no_refusal free
      rw [failed, map_eq_error] at same
      exact same
    have before : ∀ earlier ∈ before, ∃ entry, readClause ⟨true⟩ earlier = .ok entry :=
      fun earlier member => exists_readClause_legacy.mpr
        ⟨read earlier member, List.findSome?_eq_none_iff.mp refused earlier member⟩
    rw [compile_eq shown, map_eq_error]
    exact mapM_eq_error.mpr ⟨_, clause, after, split, before, still⟩

/-- What compiles with legacy readings compiles without to the same specification less the readings,
which is written and lowered alike. What compiles without compiles with them unless a `model` clause is
refused, and what does not compile without never compiles with them; the error is that of the leftmost
refused `model` clause if one stands before the failing clause. -/
theorem compile_legacy (declaration : String) :
    (∀ spec, compile ⟨true⟩ declaration = .ok spec →
      compile ⟨false⟩ declaration = .ok spec.withoutLegacy ∧
        spec.withoutLegacy.text = spec.text ∧ spec.withoutLegacy.lower = spec.lower) ∧
    (∀ spec, compile ⟨false⟩ declaration = .ok spec →
      ((∃ kept, compile ⟨true⟩ declaration = .ok kept) ↔
        ∀ clause ∈ plainClauses declaration, ∀ payload, modelPayload? clause = some payload →
          ∃ data, DataBound.parse payload = .ok data) ∧
      ∀ cause, compile ⟨true⟩ declaration = .error cause ↔
        (plainClauses declaration).findSome? modelRefusal? = some cause) ∧
    ∀ cause, compile ⟨false⟩ declaration = .error cause →
      (Text.trim declaration.toList = [] ∧ compile ⟨true⟩ declaration = .error cause) ∨
      ∃ before clause after, plainClauses declaration = before ++ clause :: after ∧
        (∀ earlier ∈ before, ClauseAccepted ⟨false⟩ earlier) ∧ ClauseFault ⟨false⟩ clause cause ∧
        compile ⟨true⟩ declaration = .error ((before.findSome? modelRefusal?).getD cause) := by
  refine ⟨fun spec h => ?_, fun spec h => ⟨?_, fun cause => ?_⟩, fun cause h => ?_⟩
  · exact ⟨compile_of_legacy h, spec.text_withoutLegacy, spec.lower_withoutLegacy⟩
  · rw [exists_compile_legacy h, findSome?_modelRefusal_eq_none]
  · obtain ⟨shown, entries, read, -⟩ := compile_eq_ok.mp h
    have good := exists_mapM_eq_ok.mp ⟨entries, read⟩
    have behind : plainClauses declaration = plainClauses declaration ++ [] := (List.append_nil _).symm
    constructor
    · intro failed
      cases refused : (plainClauses declaration).findSome? modelRefusal? with
      | none =>
        obtain ⟨kept, compiled⟩ := (exists_compile_legacy h).mpr refused
        rw [failed] at compiled
        cases compiled
      | some other =>
        have same := compile_legacy_of_refusal shown behind good refused
        rw [failed] at same
        cases same
        rfl
    · exact compile_legacy_of_refusal shown behind good
  · cases compile_eq_error.mp h with
    | blank blank => exact .inl ⟨blank, compile_blank blank ⟨true⟩⟩
    | clause shown split good bad =>
      exact .inr ⟨_, _, _, split, good, bad, compile_legacy_of_error shown split good bad⟩

/-- The first `model` clause has no attribute name, and that the second one supersedes it does not help. -/
example :
    compile ⟨false⟩ "model:,value:a,model:m" =
      .ok ⟨[("model", .model ["m"] none), ("value", .dataBound ⟨none, ["a"], []⟩)]⟩ ∧
    compile ⟨true⟩ "model:,value:a,model:m" =
      .error (.malformed "" "at least one model attribute is required") := by
  decide +kernel

end DataBind
