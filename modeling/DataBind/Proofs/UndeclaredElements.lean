import DataBind.Proofs.ErrorPolicies

/-!
# Skipped elements as undeclared ones

Skipping an element comes to the same as taking its declaration away. Every step of a run that skips is a
step of a run that aborts over the elements without the refused declarations, and that run gets to the end.
-/

namespace DataBind

universe u

namespace KeyMap

variable {β : Type u}

/-- The map without the key. -/
def erase (map : KeyMap β) (key : String) : KeyMap β :=
  ⟨map.entries.filter (·.1 != key), map.ascending.filter _⟩

theorem get?_erase (map : KeyMap β) (key other : String) :
    (map.erase key).get? other = if other = key then none else map.get? other := by
  unfold get? erase
  dsimp only
  split
  · rename_i same
    subst same
    have absent : (map.entries.filter (·.1 != other)).find? (·.1 == other) = none := by
      apply List.find?_eq_none.mpr
      intro entry member found
      have different : (entry.1 != other) = true := (List.mem_filter.mp member).2
      simp [eq_of_beq found] at different
    rw [absent]
    rfl
  · rename_i different
    rw [List.find?_filter]
    congr 2
    funext entry
    by_cases same : entry.1 = other
    · simp [same, different]
    · simp [same]

end KeyMap

variable {σ : Type} {ids : IdSource σ} {index : Nat} {element after : Element}
  {elements elementsAfter : List Element} {progress next final : Progress σ} {options : Options}

/-- The element without its declaration. -/
def Selector.undeclare (selector : Selector) (element : Element) : Element :=
  { element with attributes := element.attributes.erase selector.attributeName }

/-- The element as it is, or without its declaration if that is refused. -/
def BindRules.withoutRefusal (rules : BindRules) (element : Element) : Element :=
  if (rules.refusal? element).isSome then rules.selector.undeclare element else element

/-- The view without the declarations that are refused. -/
def View.withoutRefusals (view : View) (rules : BindRules) : View :=
  { view with elements := view.elements.map rules.withoutRefusal }

/-- What a run has brought, but for the elements that it reports. -/
def Progress.unreported (progress : Progress σ) : Progress σ :=
  { progress with skipped := [] }

/-! ### Elements -/

theorem Selector.declaration?_undeclare (selector : Selector) (element : Element) :
    selector.declaration? (selector.undeclare element) = none := by
  have absent : (selector.undeclare element).attribute? selector.attributeName = none := by
    unfold Element.attribute? undeclare
    rw [KeyMap.get?_erase, if_pos rfl]
  unfold declaration?
  rw [absent]

theorem BindRules.withoutRefusal_of_refusal {rules : BindRules} {refusal : String × DeclarationError}
    (refused : rules.refusal? element = some refusal) :
    rules.withoutRefusal element = rules.selector.undeclare element := by
  rw [withoutRefusal, refused]
  rfl

theorem BindRules.withoutRefusal_of_none {rules : BindRules} (good : rules.refusal? element = none) :
    rules.withoutRefusal element = element := by
  rw [withoutRefusal, good]
  rfl

theorem BindRules.id_withoutRefusal (rules : BindRules) (element : Element) :
    (rules.withoutRefusal element).id = element.id := by
  unfold withoutRefusal
  split <;> rfl

/-! ### Runs -/

theorem BindStep.withoutRefusal
    (step : BindStep options.skipping.rules ids index element progress after next) :
    BindStep options.aborting.rules ids index (options.rules.withoutRefusal element)
      progress.unreported (options.rules.withoutRefusal after) next.unreported := by
  cases step with
  | unselected absent =>
    have good : options.rules.refusal? element = none := BindRules.refusal?_of_unselected absent
    rw [BindRules.withoutRefusal_of_none good]
    exact .unselected absent
  | skipped selected refused policy =>
    have refusal : options.rules.refusal? element = some _ :=
      BindRules.refusal?_eq_some.mpr ⟨selected, refused⟩
    rw [BindRules.withoutRefusal_of_refusal refusal]
    exact .unselected (Selector.declaration?_undeclare options.rules.selector element)
  | identified selected compiled known =>
    have bound : options.rules.spec? element = some _ := BindRules.spec?_eq_some.mpr ⟨_, selected, compiled⟩
    rw [BindRules.withoutRefusal_of_none (BindRules.refusal?_of_spec? bound)]
    exact .identified selected compiled known
  | @generated declaration id spec state selected compiled unknown taken =>
    have bound : options.rules.spec? element = some spec :=
      BindRules.spec?_eq_some.mpr ⟨declaration, selected, compiled⟩
    have boundAfter : options.rules.spec? { element with id := some id } = some spec := bound
    rw [BindRules.withoutRefusal_of_none (BindRules.refusal?_of_spec? bound),
      BindRules.withoutRefusal_of_none (BindRules.refusal?_of_spec? boundAfter)]
    exact .generated selected compiled unknown taken

theorem BindRun.withoutRefusals
    (run : BindRun options.skipping.rules ids index elements progress elementsAfter final) :
    BindRun options.aborting.rules ids index (elements.map options.rules.withoutRefusal)
      progress.unreported (elementsAfter.map options.rules.withoutRefusal) final.unreported := by
  induction run with
  | nil => exact .nil
  | cons step run ih => exact .cons step.withoutRefusal ih

/-! ### Views -/

theorem View.ids_withoutRefusals (view : View) (rules : BindRules) :
    (view.withoutRefusals rules).elements.map (·.id) = view.elements.map (·.id) := by
  unfold withoutRefusals
  rw [List.map_map]
  exact List.map_congr_left fun element _ => rules.id_withoutRefusal element

/-- Without the refused declarations the run that aborts gets to the end, and brings what the run that skips
brings with them: only its report lists nothing as skipped. Both write the same ids onto the same elements,
and the views stay apart in the refused declarations only. -/
theorem bindView_withoutRefusals {view : View} {model : String}
    (resolved : view.resolvedModel? options = some model) (ids : IdSource σ) (state : σ)
    (log : List Registration) :
    let skipped := bindView options.skipping ids view state log
    let strict := bindView options.aborting ids (view.withoutRefusals options.rules) state log
    ∃ report, skipped.result = .ok report ∧ strict.result = .ok { report with skipped := [] } ∧
      strict.log = skipped.log ∧ strict.ids = skipped.ids ∧
      strict.view = skipped.view.withoutRefusals options.rules ∧
      strict.view.elements.map (·.id) = skipped.view.elements.map (·.id) := by
  intro skipped strict
  have policy : options.skipping.rules.onError = .skip := rfl
  obtain ⟨elementsAfter, final, run⟩ :=
    exists_run_of_skip policy ids 0 view.elements (.start state)
  have lenient : skipped = _ := bindView_of_run ((resolvedModel?_skipping view options).trans resolved)
    (List.append_nil _).symm run .finished log
  have resolved' : (view.withoutRefusals options.rules).resolvedModel? options.aborting = some model :=
    resolved
  have same : strict = _ :=
    bindView_of_run resolved' (List.append_nil _).symm run.withoutRefusals .finished log
  have views : strict.view = skipped.view.withoutRefusals options.rules := by
    rw [same, lenient, Progress.outcome_view, Progress.outcome_view, List.append_nil, List.append_nil]
    rfl
  refine ⟨⟨model, final.bindings, final.generatedIds, final.skipped⟩, ?_, ?_, ?_, ?_, views, ?_⟩
  · rw [lenient]
    rfl
  · rw [same]
    rfl
  · rw [same, lenient]
    rfl
  · rw [same, lenient]
    rfl
  · rw [views]
    exact View.ids_withoutRefusals skipped.view options.rules

/-- Refused elements with and without an id, one of them under the id of an element before and one under an
id that is generated. -/
def littered : View where
  model := some "person"
  elements := [
    { attributes := KeyMap.ofList [("data-bind", "value:a|+f+")] },
    { id := some "p", attributes := KeyMap.ofList [("data-bind", "class:b"), ("type", "text")] },
    { id := some "p", attributes := KeyMap.ofList [("data-bind", "value:"), ("type", "text")] },
    { attributes := KeyMap.ofList [("data-bind", "events:blur")] },
    { id := some "e1", attributes := KeyMap.ofList [("data-bind", ",value:c")] },
    { tag := some "hr" }]

def litteredReport : Report where
  model := "person"
  bindings := KeyMap.ofList [("#e1", { types := some ["blur"] }),
    ("#p", { attributes := [⟨"class", some (.one "b"), none⟩] })]
  generatedIds := ["e1"]
  skipped := [⟨0, "value:a|+f+", "BIND-020: Bad filter format: '+f+'"⟩,
    ⟨2, "value:", "BIND-010: Malformed operand '': at least one model attribute is required"⟩,
    ⟨4, ",value:c", "BIND-010: Malformed operand '': expected exactly one ':' separator, found 0"⟩]

/-- The elements that are bound, and what is left of the others. -/
def tidied : View where
  model := some "person"
  elements := [
    {},
    { id := some "p", attributes := KeyMap.ofList [("data-bind", "class:b"), ("type", "text")] },
    { id := some "p", attributes := KeyMap.ofList [("type", "text")] },
    { attributes := KeyMap.ofList [("data-bind", "events:blur")] },
    { id := some "e1" },
    { tag := some "hr" }]

theorem bindView_withoutRefusals_littered :
    littered.resolvedModel? {} = some "person" ∧
      littered.withoutRefusals (Options.rules {}) = tidied ∧
      (bindView (Options.skipping {}) (.numbered "e") littered 1 []).result = .ok litteredReport ∧
      (bindView (Options.aborting {}) (.numbered "e") tidied 1 []).result =
        .ok { litteredReport with skipped := [] } ∧
      (bindView (Options.aborting {}) (.numbered "e") tidied 1 []).log =
        (bindView (Options.skipping {}) (.numbered "e") littered 1 []).log := by
  have resolved : littered.resolvedModel? {} = some "person" := rfl
  have left : littered.withoutRefusals (Options.rules {}) = tidied := by decide +kernel
  have reported :
      (bindView (Options.skipping {}) (.numbered "e") littered 1 []).result = .ok litteredReport := by
    decide +kernel
  obtain ⟨report, skipped, strict, log, -⟩ := bindView_withoutRefusals resolved (.numbered "e") 1 []
  rw [left] at strict log
  obtain rfl : litteredReport = report := Except.ok.inj (reported.symm.trans skipped)
  exact ⟨resolved, left, reported, strict, log⟩

end DataBind
