import DataBind.Proofs.NormalForm
import DataBind.Proofs.ReadablePayloads

/-!
# What compiles to a specification

`CompiledForm` says which specifications some declaration compiles to. An entry comes from a clause
exactly if it is read back from its own text, so the declaration to look for is the normal form.
-/

namespace DataBind

/-- A text that ends no clause and does not split one. -/
def InClause (text : String) : Prop :=
  ',' ∉ text.toList ∧ ':' ∉ text.toList

def NameList (names : List String) : Prop :=
  names ≠ [] ∧ ∀ name ∈ names, '+' ∉ name.toList ∧ InClause name

/-- The operands that the clause of a name can give. -/
inductive OperandForm (options : CompileOptions) : String → Operand → Prop
  | events {types : List String} (list : NameList types) :
      OperandForm options "events" (.events types)
  | model {names : List String} (list : NameList names)
      (off : options.legacyModelFallthrough = false) : OperandForm options "model" (.model names none)
  | legacy {names : List String} {data : DataBound} (list : NameList names)
      (on : options.legacyModelFallthrough = true)
      (read : DataBound.parse ("+".intercalate names) = .ok data) :
      OperandForm options "model" (.model names (some data))
  | dataBound {name : String} {data : DataBound} (events : name ≠ "events") (model : name ≠ "model")
      (readable : data.Readable) (qualifier : ∀ model, data.model = some model → InClause model)
      (attributes : ∀ name ∈ data.attributes, InClause name) :
      OperandForm options name (.dataBound data)

/-- A specification with at least one entry, each of which fits into a clause of its own. -/
structure CompiledForm (options : CompileOptions) (spec : Spec) : Prop where
  nonempty : spec.entries ≠ []
  distinct : spec.names.Nodup
  names : ∀ name ∈ spec.names, InClause name ∧ ¬Text.BlankAtStart name
  payloads : ∀ entry ∈ spec.entries, ¬Text.BlankAtEnd entry.2.text
  operands : ∀ entry ∈ spec.entries, OperandForm options entry.1 entry.2

/-! ### Operands -/

theorem inClause_intercalate {names : List String} :
    InClause ("+".intercalate names) ↔ ∀ name ∈ names, InClause name := by
  have comma : ',' ≠ '+' := by decide
  have colon : ':' ≠ '+' := by decide
  have commas : ',' ∉ ("+".intercalate names).toList ↔ ∀ name ∈ names, ',' ∉ name.toList :=
    Text.not_mem_intercalate comma
  have colons : ':' ∉ ("+".intercalate names).toList ↔ ∀ name ∈ names, ':' ∉ name.toList :=
    Text.not_mem_intercalate colon
  simp only [InClause, commas, colons, forall_and]

theorem nameList_pieces {payload : String} (inside : InClause payload) :
    NameList (Text.pieces '+' payload) := by
  have joined : "+".intercalate (Text.pieces '+' payload) = payload :=
    Text.intercalate_pieces '+' payload
  have each := inClause_intercalate.mp (joined.symm ▸ inside)
  exact ⟨Text.pieces_ne_nil '+' payload,
    fun name member => ⟨Text.not_mem_of_mem_pieces member, each name member⟩⟩

theorem NameList.pieces_eq {names : List String} (list : NameList names) :
    Text.pieces '+' ("+".intercalate names) = names :=
  Text.pieces_intercalate (fun name member => (list.2 name member).1) list.1

theorem DataBound.inClause_text {data : DataBound}
    (named : ∀ filter ∈ data.filters, FunctionName filter.name) :
    InClause data.text ↔ (∀ model, data.model = some model → InClause model) ∧
      ∀ name ∈ data.attributes, InClause name := by
  have comma := not_mem_text named (c := ',') rfl (by decide) (by decide)
  have colon := not_mem_text named (c := ':') rfl (by decide) (by decide)
  simp only [InClause, comma, colon, forall_and]
  exact and_and_and_comm

theorem operandForm_of_parse {options : CompileOptions} {name payload : String} {operand : Operand}
    (inside : InClause payload) (h : Operand.parse options name payload = .ok operand) :
    OperandForm options name operand := by
  have list : NameList (Text.pieces '+' payload) := nameList_pieces inside
  unfold Operand.parse at h
  split at h
  · rename_i events
    rw [eventTypes_eq] at h
    cases h
    exact events ▸ .events list
  rename_i notEvents
  split at h
  · rename_i model
    split at h
    · rename_i on
      obtain ⟨data, read, rfl⟩ := map_eq_ok.mp h
      have joined : "+".intercalate (Text.pieces '+' payload) = payload :=
        Text.intercalate_pieces '+' payload
      exact model ▸ .legacy list on (joined.symm ▸ read)
    · rename_i off
      cases h
      exact model ▸ .model list (by simpa using off)
  · rename_i notModel
    obtain ⟨data, read, rfl⟩ := map_eq_ok.mp h
    have readable : data.Readable := DataBound.readable_of_parse read
    have written : data.text = payload := DataBound.text_of_parse read
    obtain ⟨qualifier, attributes⟩ :=
      (DataBound.inClause_text readable.filters).mp (written.symm ▸ inside)
    exact .dataBound notEvents notModel readable qualifier attributes

theorem OperandForm.parse_text {options : CompileOptions} {name : String} {operand : Operand}
    (form : OperandForm options name operand) :
    InClause operand.text ∧ Operand.parse options name operand.text = .ok operand := by
  cases form with
  | events list =>
    refine ⟨inClause_intercalate.mpr fun name member => (list.2 name member).2, ?_⟩
    rw [Operand.parse, if_pos rfl, Operand.text, eventTypes_eq, list.pieces_eq]
    rfl
  | model list off =>
    refine ⟨inClause_intercalate.mpr fun name member => (list.2 name member).2, ?_⟩
    rw [Operand.parse, if_neg (by decide), if_pos rfl, if_neg (by simp [off]), Operand.text, modelNames,
      list.pieces_eq]
  | legacy list on read =>
    refine ⟨inClause_intercalate.mpr fun name member => (list.2 name member).2, ?_⟩
    rw [Operand.parse, if_neg (by decide), if_pos rfl, if_pos on, Operand.text, modelNames,
      list.pieces_eq, read]
    rfl
  | dataBound events model readable qualifier attributes =>
    refine ⟨(DataBound.inClause_text readable.filters).mpr ⟨qualifier, attributes⟩, ?_⟩
    rw [Operand.parse, if_neg events, if_neg model, Operand.text,
      DataBound.parse_text_eq_ok.mpr readable]
    rfl

/-! ### Entries -/

theorem plainEntry_iff {options : CompileOptions} {entry : String × Operand} :
    PlainEntry options entry ↔
      (InClause entry.1 ∧ ¬Text.BlankAtStart entry.1) ∧ ¬Text.BlankAtEnd entry.2.text ∧
        OperandForm options entry.1 entry.2 := by
  obtain ⟨name, operand⟩ := entry
  have mark : ¬Text.isBlank ':' := by decide
  have trimmed : Text.strip (entryText (name, operand)) = entryText (name, operand) ↔
      ¬Text.BlankAtStart name ∧ ¬Text.BlankAtEnd operand.text := Text.strip_eq_self_iff mark
  have commas : ',' ∉ (entryText (name, operand)).toList ↔
      ',' ∉ name.toList ∧ ',' ∉ operand.text.toList := by
    simp [entryText]
  constructor
  · rintro ⟨comma, strip, read⟩
    obtain ⟨start, finish⟩ := trimmed.mp strip
    obtain ⟨freeName, freePayload⟩ := commas.mp comma
    obtain ⟨payload, colonName, colonPayload, -, parsed⟩ := readClause_eq_ok.mp read
    have written : operand.text = payload := Operand.text_of_parse parsed
    subst written
    exact ⟨⟨⟨freeName, colonName⟩, start⟩, finish,
      operandForm_of_parse ⟨freePayload, colonPayload⟩ parsed⟩
  · rintro ⟨⟨⟨freeName, colonName⟩, start⟩, finish, form⟩
    obtain ⟨⟨freePayload, colonPayload⟩, parsed⟩ := form.parse_text
    refine ⟨commas.mpr ⟨freeName, freePayload⟩, trimmed.mpr ⟨start, finish⟩, ?_⟩
    exact readClause_eq_ok.mpr ⟨operand.text, colonName, colonPayload, rfl, parsed⟩

/-- Some declaration compiles to a specification exactly if it has the compiled form. -/
theorem exists_compile_iff_compiledForm {options : CompileOptions} {spec : Spec} :
    (∃ declaration, compile options declaration = .ok spec) ↔ CompiledForm options spec := by
  constructor
  · rintro ⟨declaration, h⟩
    refine ⟨entries_ne_nil h, nodup_names_of_compile h, List.forall_mem_map.mpr ?_, ?_, ?_⟩
    all_goals
      intro entry member
      obtain ⟨name, payload, operand⟩ := plainEntry_iff.mp (plainEntry_of_mem h member)
      assumption
  · intro form
    have plain : ∀ entry ∈ spec.entries, PlainEntry options entry := by
      intro entry member
      have named : entry.1 ∈ spec.names := List.mem_map_of_mem member
      exact plainEntry_iff.mpr
        ⟨form.names entry.1 named, form.payloads entry member, form.operands entry member⟩
    exact ⟨spec.text, compile_text_of_plain form.nonempty form.distinct plain⟩

end DataBind
