import DataBind.Proofs.KeyedEntries
import DataBind.View.Bind

/-!
# Runs over elements

`BindStep` says what one element can do to a run and `BindRun` chains steps; an element that ends a run
has no step. What a run preserves is proved from its steps: only ids change, every bound element has
one in the end, and the bindings are those of the elements after the run, written in order.
-/

namespace DataBind

variable {σ : Type}

/-- What the declaration of an element compiles to, if the element is selected and it does. -/
def BindRules.spec? (rules : BindRules) (element : Element) : Option Spec :=
  (rules.selector.declaration? element).bind fun declaration =>
    (compile rules.compileOptions declaration).toOption

/-- The element as it was before any id was written. -/
def Element.anonymous (element : Element) : Element :=
  { element with id := none }

/-- One element of a run, what it is afterwards and what the run has brought then. -/
inductive BindStep (rules : BindRules) (ids : IdSource σ) (index : Nat) (element : Element)
    (progress : Progress σ) : Element → Progress σ → Prop
  | unselected (absent : rules.selector.declaration? element = none) :
      BindStep rules ids index element progress element progress
  | skipped {declaration : String} {cause : DeclarationError}
      (selected : rules.selector.declaration? element = some declaration)
      (refused : compile rules.compileOptions declaration = .error cause)
      (policy : rules.onError = .skip) :
      BindStep rules ids index element progress element (progress.skip index declaration cause)
  | identified {declaration id : String} {spec : Spec}
      (selected : rules.selector.declaration? element = some declaration)
      (compiled : compile rules.compileOptions declaration = .ok spec) (known : element.id = some id) :
      BindStep rules ids index element progress element
        (progress.bind ⟨id, false, spec.lower⟩ progress.ids)
  | generated {declaration id : String} {spec : Spec} {state : σ}
      (selected : rules.selector.declaration? element = some declaration)
      (compiled : compile rules.compileOptions declaration = .ok spec) (unknown : element.id = none)
      (taken : ids.next progress.ids = (id, state)) :
      BindStep rules ids index element progress { element with id := some id }
        (progress.bind ⟨id, true, spec.lower⟩ state)

inductive BindRun (rules : BindRules) (ids : IdSource σ) :
    Nat → List Element → Progress σ → List Element → Progress σ → Prop
  | nil {index : Nat} {progress : Progress σ} : BindRun rules ids index [] progress [] progress
  | cons {index : Nat} {element after : Element} {rest restAfter : List Element}
      {progress next final : Progress σ} (step : BindStep rules ids index element progress after next)
      (run : BindRun rules ids (index + 1) rest next restAfter final) :
      BindRun rules ids index (element :: rest) progress (after :: restAfter) final

/-- The declaration of a selected element ends the run. -/
def BindAborts (rules : BindRules) (element : Element) (cause : DeclarationError) : Prop :=
  ∃ declaration, rules.selector.declaration? element = some declaration ∧
    compile rules.compileOptions declaration = .error cause ∧ rules.onError = .abort

variable {rules : BindRules} {ids : IdSource σ} {index : Nat} {element after : Element}
  {rest elements elementsAfter : List Element} {progress next final : Progress σ}
  {cause : DeclarationError}

/-! ### Steps -/

theorem bindStep_or_aborts (rules : BindRules) (ids : IdSource σ) (index : Nat) (element : Element)
    (progress : Progress σ) :
    (∃ after next, BindStep rules ids index element progress after next) ∨
      ∃ cause, BindAborts rules element cause := by
  cases selected : rules.selector.declaration? element with
  | none => exact .inl ⟨_, _, .unselected selected⟩
  | some declaration =>
    cases compiled : compile rules.compileOptions declaration with
    | ok spec =>
      cases known : element.id with
      | some id => exact .inl ⟨_, _, .identified selected compiled known⟩
      | none => exact .inl ⟨_, _, .generated selected compiled known rfl⟩
    | error cause =>
      cases policy : rules.onError with
      | abort => exact .inr ⟨cause, declaration, selected, compiled, policy⟩
      | skip => exact .inl ⟨_, _, .skipped selected compiled policy⟩

theorem bindElements_step (step : BindStep rules ids index element progress after next)
    (rest : List Element) :
    bindElements rules ids (element :: rest) index progress =
      (after :: (bindElements rules ids rest (index + 1) next).1,
        (bindElements rules ids rest (index + 1) next).2) := by
  rw [bindElements]
  cases step with
  | unselected absent => simp only [absent]
  | skipped selected refused policy =>
    simp only [selected, lowerDeclaration, refused, policy, Except.map]
  | identified selected compiled known =>
    simp only [selected, lowerDeclaration, compiled, Except.map, Spec.lowerFor, known]
    rfl
  | generated selected compiled unknown taken =>
    simp only [selected, lowerDeclaration, compiled, Except.map, Spec.lowerFor, unknown, taken]
    rfl

theorem bindElements_aborts (aborts : BindAborts rules element cause) (ids : IdSource σ)
    (rest : List Element) (index : Nat) (progress : Progress σ) :
    bindElements rules ids (element :: rest) index progress =
      (element :: rest, progress, some cause) := by
  obtain ⟨declaration, selected, refused, policy⟩ := aborts
  rw [bindElements]
  simp only [selected, lowerDeclaration, refused, policy, Except.map]

/-! ### What a run preserves -/

theorem BindRules.spec?_eq_some {spec : Spec} :
    rules.spec? element = some spec ↔
      ∃ declaration, rules.selector.declaration? element = some declaration ∧
        compile rules.compileOptions declaration = .ok spec := by
  have ok : ∀ result : Except DeclarationError Spec, result.toOption = some spec ↔ result = .ok spec := by
    intro result
    cases result <;> simp [Except.toOption]
  simp only [spec?, Option.bind_eq_some_iff, ok]

theorem BindRules.spec?_of_unselected (absent : rules.selector.declaration? element = none) :
    rules.spec? element = none := by
  rw [spec?, absent]
  rfl

theorem BindRules.spec?_of_error {declaration : String}
    (selected : rules.selector.declaration? element = some declaration)
    (refused : compile rules.compileOptions declaration = .error cause) :
    rules.spec? element = none := by
  rw [spec?, selected, Option.bind_some, refused]
  rfl

theorem BindRules.spec?_anonymous (rules : BindRules) (element : Element) :
    rules.spec? element.anonymous = rules.spec? element := rfl

theorem BindStep.anonymous (step : BindStep rules ids index element progress after next) :
    after.anonymous = element.anonymous := by
  cases step <;> rfl

theorem BindStep.spec? (step : BindStep rules ids index element progress after next) :
    rules.spec? after = rules.spec? element := by
  rw [← rules.spec?_anonymous after, step.anonymous, rules.spec?_anonymous]

theorem BindRun.anonymous (run : BindRun rules ids index elements progress elementsAfter final) :
    elementsAfter.map Element.anonymous = elements.map Element.anonymous := by
  induction run with
  | nil => rfl
  | cons step run ih => rw [List.map_cons, List.map_cons, step.anonymous, ih]

theorem BindRun.length_eq (run : BindRun rules ids index elements progress elementsAfter final) :
    elementsAfter.length = elements.length := by
  have same := congrArg List.length run.anonymous
  simpa using same

/-- The entry that a bound element adds to the bindings. -/
def BindRules.binding? (rules : BindRules) (element : Element) : Option (String × ElementBinding) :=
  (rules.spec? element).bind fun spec => element.id.map fun id => (selectorFor id, spec.lower)

theorem BindRules.binding?_eq_some {entry : String × ElementBinding} :
    rules.binding? element = some entry ↔
      ∃ spec id, rules.spec? element = some spec ∧ element.id = some id ∧
        (selectorFor id, spec.lower) = entry := by
  simp only [binding?, Option.bind_eq_some_iff, Option.map_eq_some_iff]
  constructor
  · rintro ⟨spec, compiled, id, known, same⟩
    exact ⟨spec, id, compiled, known, same⟩
  · rintro ⟨spec, id, compiled, known, same⟩
    exact ⟨spec, compiled, id, known, same⟩

/-- What a step means for an element: it is not bound and nothing is added, or it is bound, has an id
afterwards and its entry is added. -/
theorem BindStep.bound_cases (step : BindStep rules ids index element progress after next) :
    (rules.spec? after = none ∧ next.bindings = progress.bindings) ∨
      ∃ spec id, rules.spec? after = some spec ∧ after.id = some id ∧
        next.bindings = progress.bindings.insert (selectorFor id) spec.lower := by
  rw [step.spec?]
  cases step with
  | unselected absent => exact .inl ⟨BindRules.spec?_of_unselected absent, rfl⟩
  | skipped selected refused policy => exact .inl ⟨BindRules.spec?_of_error selected refused, rfl⟩
  | identified selected compiled known =>
    exact .inr ⟨_, _, BindRules.spec?_eq_some.mpr ⟨_, selected, compiled⟩, known, rfl⟩
  | generated selected compiled unknown taken =>
    exact .inr ⟨_, _, BindRules.spec?_eq_some.mpr ⟨_, selected, compiled⟩, rfl, rfl⟩

theorem BindStep.bindings (step : BindStep rules ids index element progress after next) :
    next.bindings = progress.bindings.insertAll (rules.binding? after).toList := by
  rcases step.bound_cases with ⟨unbound, same⟩ | ⟨spec, id, bound, known, same⟩
  · rw [BindRules.binding?, unbound]
    exact same
  · rw [BindRules.binding?_eq_some.mpr ⟨spec, id, bound, known, rfl⟩]
    exact same

theorem BindRun.bindings (run : BindRun rules ids index elements progress elementsAfter final) :
    final.bindings = progress.bindings.insertAll (elementsAfter.filterMap rules.binding?) := by
  induction run with
  | nil => rfl
  | cons step run ih =>
    rw [ih, step.bindings, ← KeyMap.insertAll_append, List.filterMap_cons]
    cases rules.binding? _ <;> rfl

theorem BindRun.identified (run : BindRun rules ids index elements progress elementsAfter final)
    {bound : Element} (member : bound ∈ elementsAfter) {spec : Spec}
    (compiled : rules.spec? bound = some spec) : ∃ id, bound.id = some id := by
  induction run with
  | nil => cases member
  | cons step run ih =>
    rcases List.mem_cons.mp member with rfl | member
    · rcases step.bound_cases with ⟨unbound, -⟩ | ⟨-, id, -, known, -⟩
      · rw [unbound] at compiled
        cases compiled
      · exact ⟨id, known⟩
    · exact ih member

end DataBind
