import DataBind.Proofs.LoweringKernel
import DataBind.Proofs.MergedBindings
import DataBind.Proofs.RegistrationLog

/-!
# Bindings that the engine receives

`DeclaredBinding` says what the engine may rely on in a binding and how each part of it is told by the
clauses of the declaration. Lowering whatever compiles gives such a binding, and merging the bindings of a
view gives no other ones.
-/

namespace DataBind

/-- Some clause of the declaration names the operand. -/
def Declares (declaration operand : String) : Prop :=
  ∃ clause ∈ plainClauses declaration, clauseOperand clause = operand

/-- The names of a payload stand in front of its first bar, behind the qualifier if it has one, and are
separated by `+`. There is something to read there. -/
def AttributeNames (payload : String) (names : List String) : Prop :=
  ∃ expression head tokens, PayloadParts payload expression head tokens ∧ head ≠ "" ∧
    head = "+".intercalate names ∧ ∀ name ∈ names, '+' ∉ name.toList

structure DeclaredBinding (declaration : String) (binding : ElementBinding) : Prop where
  observes : binding.observe = none ↔ ¬Declares declaration "value"
  observed : ∀ observe, binding.observe = some observe →
    ∃ payload, lastClause? (plainClauses declaration) "value" = some ("value:" ++ payload) ∧
      AttributeNames payload observe.names ∧ observe.names ≠ [] ∧
      ∀ names, observe = .many names → 2 ≤ names.length
  callbacks : ∀ role name, binding.callback? role = some name → FunctionName name
  uncalled : ¬Declares declaration "value" → ∀ role, binding.callback? role = none
  distinct : (binding.attributes.map (·.name)).Nodup
  attributes : ∀ name, name ∈ binding.attributes.map (·.name) ↔
    name ∈ ["disabled", "class", "readonly"] ∧ Declares declaration name
  bound : ∀ slot ∈ binding.attributes, slot.observe ≠ none ∧
    ∀ callback, slot.callback = some callback → FunctionName callback.name
  listens : binding.types = none ↔ ¬Declares declaration "events"
  events : ∀ types, binding.types = some types → types ≠ []

variable {options : CompileOptions} {declaration name : String} {spec : Spec}

/-! ### Clauses of what compiles -/

/-- The last clause of an operand is written from what the specification has under its name. -/
theorem lastClause?_of_compile (h : compile options declaration = .ok spec) (name : String) :
    lastClause? (plainClauses declaration) name =
      (spec.get? name).map fun operand => entryText (name, operand) := by
  obtain ⟨-, entries, read, rfl⟩ := compile_eq_ok.mp h
  obtain ⟨clauses, named⟩ := clauses_of_mapM read
  have none : Spec.empty.get? name = none := rfl
  rw [clauses, lastClause?_map_entryText named, Spec.get?_insertAll_entries, none, Option.or_none]

theorem declares_iff_lastClause? :
    Declares declaration name ↔ lastClause? (plainClauses declaration) name ≠ none := by
  unfold Declares lastClause?
  simp

theorem declares_iff (h : compile options declaration = .ok spec) :
    Declares declaration name ↔ spec.get? name ≠ none := by
  rw [declares_iff_lastClause?, lastClause?_of_compile h, ne_eq, Option.map_eq_none_iff]

theorem Spec.mem_names_iff {spec : Spec} : name ∈ spec.names ↔ spec.get? name ≠ none := by
  constructor
  · intro member absent
    unfold get? at absent
    rw [Option.map_eq_none_iff, List.find?_eq_none] at absent
    obtain ⟨entry, listed, rfl⟩ := List.mem_map.mp member
    exact absent entry listed (beq_self_eq_true entry.1)
  · intro found
    by_contra absent
    exact found (get?_eq_none absent)

theorem OperandForm.readable {data : DataBound} (form : OperandForm options name (.dataBound data)) :
    data.Readable := by
  cases form with
  | dataBound _ _ readable => exact readable

theorem OperandForm.types_ne_nil {types : List String}
    (form : OperandForm options name (.events types)) : types ≠ [] := by
  cases form with
  | events list => exact list.1

/-! ### Parts of a binding -/

theorem DataBound.Readable.attributeNames {data : DataBound} (readable : data.Readable) :
    AttributeNames data.text data.attributes :=
  ⟨data.expression, data.head, data.tokens, readable.parts, readable.head_ne_empty, rfl,
    fun name member => (readable.attributes name member).1⟩

theorem Observe.collapse_eq_some {names : List String} {observe : Observe}
    (collapsed : collapse names = some observe) :
    observe.names = names ∧ names ≠ [] ∧ ∀ several, observe = .many several → 2 ≤ several.length := by
  rcases names with _ | ⟨name, _ | ⟨second, rest⟩⟩
  · cases collapsed
  · cases collapsed
    exact ⟨rfl, List.cons_ne_nil _ _, nofun⟩
  · cases collapsed
    refine ⟨rfl, List.cons_ne_nil _ _, ?_⟩
    rintro several ⟨⟩
    simp

theorem mem_of_lastInRole? {role : CallbackRole} {filters : List Filter}
    (last : lastInRole? role filters = some name) : ∃ filter ∈ filters, filter.name = name := by
  obtain ⟨filter, found, named⟩ := Option.map_eq_some_iff.mp last
  exact ⟨filter, List.mem_reverse.mp (List.mem_of_find?_eq_some found), named⟩

theorem attribute_of_lower (h : compile options declaration = .ok spec) {slot : AttributeBinding}
    (member : slot ∈ spec.lower.attributes) :
    ∃ (name : String) (data : DataBound), data.Readable ∧ slot = data.lowerAttribute name := by
  rw [lower_attributes_eq] at member
  obtain ⟨entry, listed, binding⟩ := List.mem_filterMap.mp member
  have plain : AttributeEntry entry := attributeEntry_of_mem h listed
  obtain ⟨data, same, other⟩ := plain.exists_binding
  have form : OperandForm options entry.1 entry.2 := operandForm_of_mem h (List.mem_filter.mp listed).1
  rw [other] at binding
  rw [same] at form
  exact ⟨entry.1, data, form.readable, (Option.some.inj binding).symm⟩

/-! ### Lowering -/

/-- What a binding has from the value clause that stands, or from there being none. -/
inductive ValueLowered (declaration : String) (binding : ElementBinding) : Prop
  | undeclared (absent : ¬Declares declaration "value") (unobserved : binding.observe = none)
      (uncalled : ∀ role, binding.callback? role = none)
  | declared {data : DataBound} (readable : data.Readable)
      (stands : lastClause? (plainClauses declaration) "value" = some ("value:" ++ data.text))
      (observed : binding.observe = Observe.collapse data.attributes)
      (called : ∀ role, binding.callback? role = lastInRole? role data.filters)

theorem valueLowered_lower (h : compile options declaration = .ok spec) :
    ValueLowered declaration spec.lower := by
  have distinct : spec.names.Nodup := nodup_names_of_compile h
  have stands := lastClause?_of_compile h "value"
  rcases value_cases h with ⟨found, none⟩ | ⟨data, found, some, -⟩
  · apply ValueLowered.undeclared
    · rw [declares_iff h, found]
      exact fun known => known rfl
    · rw [Spec.lower_observe distinct, none]
      rfl
    · intro role
      rw [Spec.lower_callback? distinct, none]
      rfl
  · rw [found] at stands
    apply ValueLowered.declared (operandForm_of_get? h found).readable stands
    · rw [Spec.lower_observe distinct, some]
      rfl
    · intro role
      rw [Spec.lower_callback? distinct, some]
      rfl

/-- Whatever compiles lowers to a binding that its declaration tells. -/
theorem declaredBinding_lower (h : compile options declaration = .ok spec) :
    DeclaredBinding declaration spec.lower := by
  have value : ValueLowered declaration spec.lower := valueLowered_lower h
  constructor
  case observes =>
    cases value with
    | undeclared absent unobserved => simp [absent, unobserved]
    | declared readable stands observed =>
      have known : Declares declaration "value" := by
        rw [declares_iff_lastClause?, stands]
        exact Option.some_ne_none _
      simp [known, observed, Observe.collapse_ne_none readable.nonempty]
  case observed =>
    intro observe some
    cases value with
    | undeclared absent unobserved => cases unobserved.symm.trans some
    | @declared data readable stands observed =>
      obtain ⟨names, nonempty, several⟩ := Observe.collapse_eq_some (observed.symm.trans some)
      exact ⟨data.text, stands, names ▸ readable.attributeNames, names ▸ nonempty, several⟩
  case callbacks =>
    intro role name some
    cases value with
    | undeclared absent unobserved uncalled => cases (uncalled role).symm.trans some
    | declared readable stands observed called =>
      obtain ⟨filter, member, rfl⟩ := mem_of_lastInRole? ((called role).symm.trans some)
      exact readable.filters filter member
  case uncalled =>
    intro absent
    cases value with
    | undeclared _ _ uncalled => exact uncalled
    | declared readable stands =>
      rw [declares_iff_lastClause?, stands] at absent
      exact absurd (Option.some_ne_none _) absent
  case distinct =>
    rw [lower_attributes_names h]
    exact (nodup_names_of_compile h).filter _
  case attributes =>
    intro name
    rw [lower_attributes_names h, List.mem_filter, decide_eq_true_iff, Spec.mem_names_iff, declares_iff h]
    exact and_comm
  case bound =>
    intro slot member
    obtain ⟨name, data, readable, rfl⟩ := attribute_of_lower h member
    refine ⟨Observe.collapse_ne_none readable.nonempty, fun callback called => ?_⟩
    obtain ⟨filter, first, rfl⟩ := Option.map_eq_some_iff.mp called
    exact readable.filters filter (List.mem_of_head? first)
  case listens =>
    rw [declares_iff h]
    rcases events_cases h with ⟨found, types⟩ | ⟨listed, found, types⟩
    · simp [found, types]
    · simp [found, types]
  case events =>
    intro types listening
    rcases events_cases h with ⟨-, none⟩ | ⟨listed, found, some⟩
    · cases none.symm.trans listening
    · cases some.symm.trans listening
      exact (operandForm_of_get? h found).types_ne_nil

/-! ### Runs -/

theorem log_of_report {σ : Type} {options : Options} {ids : IdSource σ} {view : View} {state : σ}
    {log : List Registration} {report : Report}
    (h : (bindView options ids view state log).result = .ok report) :
    (bindView options ids view state log).log =
      log ++ [.own report.model options.bindings, .added report.model report.bindings] := by
  have logged := BindCall.logged ⟨σ, ids, state, options, view⟩ log
  unfold BindCall.outcome at logged
  dsimp only at logged
  rw [h] at logged
  generalize (bindView options ids view state log).log = after at logged ⊢
  cases logged with
  | bound => rfl

/-- The bindings that a run with a report registers are those of elements of the view, each what lowering
the declaration of its element gives; and lowering what compiles gives bindings of which the engine can
rely on every part. -/
theorem engine_receives_declared {σ : Type} (options : Options) (ids : IdSource σ) (view : View) (state : σ)
    (log : List Registration) :
    let outcome := bindView options ids view state log
    (∀ report, outcome.result = .ok report →
      outcome.log = log ++ [.own report.model options.bindings, .added report.model report.bindings] ∧
      ∀ entry ∈ report.bindings.entries, ∃ element ∈ outcome.view.elements, ∃ id declaration,
        element.id = some id ∧ entry.1 = selectorFor id ∧
        options.rules.selector.declaration? element = some declaration ∧
        DeclaredBinding declaration entry.2) ∧
    ∀ declaration spec, compile options.compileOptions declaration = .ok spec →
      DeclaredBinding declaration spec.lower := by
  intro outcome
  refine ⟨fun report h => ⟨log_of_report h, fun entry member => ?_⟩, fun declaration spec h =>
    declaredBinding_lower h⟩
  have found : report.bindings.get? entry.1 = some entry.2 := KeyMap.mem_entries.mp member
  rw [bindings_of_report h] at found
  obtain ⟨before, element, rest, id, spec, split, bound, key, lowered, -⟩ := get?_bindings.mp found
  obtain ⟨declaration, selected, compiled⟩ := BindRules.spec?_eq_some.mp bound.compiled
  have listed : element ∈ outcome.view.elements := by
    rw [split]
    simp
  rw [← lowered]
  exact ⟨element, listed, id, declaration, bound.named, key.symm, selected, declaredBinding_lower compiled⟩

/-- An element with two value clauses, and one without any. -/
def labelled : View where
  model := some "m"
  elements := [
    { id := some "a", attributes := KeyMap.ofList [("data-bind", "value:x,class:y|+f,events:blur,value:u+v|g-")] },
    { attributes := KeyMap.ofList [("data-bind", "readonly:z")] }]

def labelledReport : Report where
  model := "m"
  bindings := KeyMap.ofList [
    ("#a", {
      observe := some (.many ["u", "v"]), updateModel := some "g"
      attributes := [⟨"class", some (.one "y"), some ⟨.onGet, "f"⟩⟩]
      types := some ["blur"] }),
    ("#e1", { attributes := [⟨"readonly", some (.one "z"), none⟩] })]
  generatedIds := ["e1"]
  skipped := []

def lockedSpec : Spec :=
  ⟨[("readonly", .dataBound ⟨none, ["z"], []⟩)]⟩

theorem engine_receives_declared_labelled :
    (bindView {} (.numbered "e") labelled 1 []).result = .ok labelledReport ∧
      (∀ entry ∈ labelledReport.bindings.entries, ∃ declaration, DeclaredBinding declaration entry.2) ∧
      compile {} "readonly:z" = .ok lockedSpec ∧ DeclaredBinding "readonly:z" lockedSpec.lower := by
  have reported : (bindView {} (.numbered "e") labelled 1 []).result = .ok labelledReport := by decide +kernel
  have compiled : compile {} "readonly:z" = .ok lockedSpec := by decide +kernel
  obtain ⟨received, lowered⟩ := engine_receives_declared {} (.numbered "e") labelled 1 []
  refine ⟨reported, fun entry member => ?_, compiled, lowered "readonly:z" lockedSpec compiled⟩
  obtain ⟨-, elements⟩ := received labelledReport reported
  obtain ⟨-, -, -, declaration, -, -, -, declared⟩ := elements entry member
  exact ⟨declaration, declared⟩

end DataBind
