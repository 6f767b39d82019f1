import DataBind.Proofs.RunEnds

/-!
# What a run reads

A run reads the ids and the declarations of the selected elements, in their order, and nothing else of a
view. `bindDeclared` binds such a list on its own, and a run over elements is that run with the elements
that are not selected in between.
-/

namespace DataBind

variable {σ : Type} {rules : BindRules} {ids : IdSource σ} {index : Nat} {element after : Element}
  {elements : List Element} {progress next : Progress σ} {cause : DeclarationError}

/-- The id and the declaration of an element that is selected. -/
def Selector.declared? (selector : Selector) (element : Element) : Option (Option String × String) :=
  (selector.declaration? element).map fun declaration => (element.id, declaration)

def View.declared (view : View) (selector : Selector) : List (Option String × String) :=
  view.elements.filterMap selector.declared?

/-- The ids of the selected elements, in the order of the elements. -/
def Selector.selectedIds (selector : Selector) (elements : List Element) : List (Option String) :=
  (elements.filter selector.selects).map (·.id)

/-! ### Without positions -/

def Skipped.unplaced (skipped : Skipped) : Skipped :=
  { skipped with index := 0 }

def Progress.unplaced (progress : Progress σ) : Progress σ :=
  { progress with skipped := progress.skipped.map Skipped.unplaced }

def Report.unplaced (report : Report) : Report :=
  { report with skipped := report.skipped.map Skipped.unplaced }

theorem Progress.unplaced_skip (progress : Progress σ) (index : Nat) (declaration : String)
    (cause : DeclarationError) :
    (progress.skip index declaration cause).unplaced = progress.unplaced.skip 0 declaration cause := by
  rw [unplaced, skip, List.map_append]
  rfl

/-! ### Binding ids and declarations -/

/-- The ids afterwards, what the run has brought, and the error that ended it early. -/
def bindDeclared (options : CompileOptions) (onError : ErrorPolicy) (ids : IdSource σ) :
    List (Option String × String) → Progress σ →
      List (Option String) × Progress σ × Option DeclarationError
  | [], progress => ([], progress, none)
  | (id, declaration) :: rest, progress =>
    match lowerDeclaration options declaration id ids progress.ids with
    | .ok (lowered, state) =>
      let (restIds, outcome) := bindDeclared options onError ids rest (progress.bind lowered state)
      (some lowered.elementId :: restIds, outcome)
    | .error cause =>
      match onError with
      | .abort => (id :: rest.map (·.1), progress, some cause)
      | .skip =>
        let (restIds, outcome) :=
          bindDeclared options onError ids rest (progress.skip 0 declaration cause)
        (id :: restIds, outcome)

theorem Selector.declared?_of_unselected {selector : Selector}
    (absent : selector.declaration? element = none) : selector.declared? element = none := by
  rw [declared?, absent]
  rfl

theorem Selector.declared?_of_selected {selector : Selector} {declaration : String}
    (selected : selector.declaration? element = some declaration) :
    selector.declared? element = some (element.id, declaration) := by
  rw [declared?, selected]
  rfl

theorem Selector.selectedIds_cons_of_unselected {selector : Selector}
    (absent : selector.declaration? element = none) (rest : List Element) :
    selector.selectedIds (element :: rest) = selector.selectedIds rest := by
  rw [selectedIds, List.filter_cons_of_neg (by simp [selects, absent])]
  rfl

theorem Selector.selectedIds_cons_of_selected {selector : Selector} {declaration : String}
    (selected : selector.declaration? element = some declaration) (rest : List Element) :
    selector.selectedIds (element :: rest) = element.id :: selector.selectedIds rest := by
  rw [selectedIds, List.filter_cons_of_pos (by simp [selects, selected])]
  rfl

theorem Selector.selectedIds_eq (selector : Selector) (elements : List Element) :
    selector.selectedIds elements = (elements.filterMap selector.declared?).map (·.1) := by
  induction elements with
  | nil => rfl
  | cons element rest ih =>
    cases selected : selector.declaration? element with
    | none => rw [selectedIds_cons_of_unselected selected,
        List.filterMap_cons_none (declared?_of_unselected selected), ih]
    | some declaration => rw [selectedIds_cons_of_selected selected,
        List.filterMap_cons_some (declared?_of_selected selected), ih, List.map_cons]

/-- A run over elements does to the selected ones what the run over their ids and declarations does. -/
theorem bindDeclared_of_elements (rules : BindRules) (ids : IdSource σ) (elements : List Element)
    (index : Nat) (progress : Progress σ) :
    bindDeclared rules.compileOptions rules.onError ids (elements.filterMap rules.selector.declared?)
        progress.unplaced =
      (rules.selector.selectedIds (bindElements rules ids elements index progress).1,
        (bindElements rules ids elements index progress).2.1.unplaced,
        (bindElements rules ids elements index progress).2.2) := by
  induction elements generalizing index progress with
  | nil => rfl
  | cons element rest ih =>
    rcases bindStep_or_aborts rules ids index element progress with ⟨after, next, step⟩ | ⟨cause, aborts⟩
    · rw [bindElements_step step]
      cases step with
      | unselected absent =>
        rw [List.filterMap_cons_none (Selector.declared?_of_unselected absent), ih (index + 1) progress,
          Selector.selectedIds_cons_of_unselected absent]
      | @skipped declaration cause selected refused policy =>
        have later := ih (index + 1) (progress.skip index declaration cause)
        rw [Progress.unplaced_skip] at later
        rw [List.filterMap_cons_some (Selector.declared?_of_selected selected), bindDeclared]
        simp only [lowerDeclaration, refused, policy, Except.map] at later ⊢
        rw [later, Selector.selectedIds_cons_of_selected selected]
      | @identified declaration id spec selected compiled known =>
        have later := ih (index + 1) (progress.bind ⟨id, false, spec.lower⟩ progress.ids)
        rw [List.filterMap_cons_some (Selector.declared?_of_selected selected), bindDeclared]
        simp only [lowerDeclaration, compiled, known, Except.map, Spec.lowerFor]
        rw [Selector.selectedIds_cons_of_selected selected, known]
        exact congrArg (fun outcome => (some id :: outcome.1, outcome.2)) later
      | @generated declaration id spec state selected compiled unknown taken =>
        have later := ih (index + 1) (progress.bind ⟨id, true, spec.lower⟩ state)
        have still : rules.selector.declaration? { element with id := some id } = some declaration :=
          selected
        rw [List.filterMap_cons_some (Selector.declared?_of_selected selected), bindDeclared]
        simp only [lowerDeclaration, compiled, unknown, taken, Except.map, Spec.lowerFor, Progress.unplaced]
        rw [Selector.selectedIds_cons_of_selected still]
        exact congrArg (fun outcome => (some id :: outcome.1, outcome.2)) later
    · obtain ⟨declaration, selected, refused, policy⟩ := aborts
      rw [bindElements_aborts ⟨declaration, selected, refused, policy⟩,
        List.filterMap_cons_some (Selector.declared?_of_selected selected), bindDeclared]
      simp only [lowerDeclaration, refused, policy, Except.map]
      rw [Selector.selectedIds_cons_of_selected selected, Selector.selectedIds_eq]

/-- What a run may do to an element: it writes an id, and only if the element is selected. -/
def Element.Spared (selector : Selector) (before after : Element) : Prop :=
  after.anonymous = before.anonymous ∧ (selector.declaration? before = none → after = before)

theorem BindStep.spares (step : BindStep rules ids index element progress after next) :
    element.Spared rules.selector after := by
  refine ⟨step.anonymous, fun absent => ?_⟩
  cases step with
  | unselected => rfl
  | skipped selected => rfl
  | identified selected => rfl
  | generated selected =>
    rw [absent] at selected
    cases selected

theorem bindElements_spares (rules : BindRules) (ids : IdSource σ) (elements : List Element)
    (index : Nat) (progress : Progress σ) :
    List.Forall₂ (Element.Spared rules.selector) elements
      (bindElements rules ids elements index progress).1 := by
  induction elements generalizing index progress with
  | nil => exact .nil
  | cons element rest ih =>
    rcases bindStep_or_aborts rules ids index element progress with ⟨after, next, step⟩ | ⟨cause, aborts⟩
    · rw [bindElements_step step]
      exact .cons step.spares (ih (index + 1) next)
    · rw [bindElements_aborts aborts]
      exact List.forall₂_same.mpr fun _ _ => ⟨rfl, fun _ => rfl⟩

/-! ### Views -/

/-- Two runs that cannot be told apart but by the positions of skipped elements. `log` and `log'` are
what the engines had received before. -/
structure RunAlike (selector selector' : Selector) (log log' : List Registration)
    (first second : BindOutcome σ) : Prop where
  result : first.result.map Report.unplaced = second.result.map Report.unplaced
  calls : ∃ calls, first.log = log ++ calls ∧ second.log = log' ++ calls
  ids : first.ids = second.ids
  selectedIds : selector.selectedIds first.view.elements = selector'.selectedIds second.view.elements

theorem map_unplaced_outcome (final : Progress σ) (view : View) (log : List Registration) (model : String)
    (failure : Option DeclarationError) :
    (final.outcome view log model failure).result.map Report.unplaced =
      (final.unplaced.outcome view log model failure).result := by
  cases failure <;> rfl

theorem calls_outcome (final : Progress σ) (view : View) (log : List Registration) (model : String)
    (failure : Option DeclarationError) :
    (final.outcome view log model failure).log = log ++ (final.unplaced.outcome view [] model failure).log := by
  cases failure with
  | none => rfl
  | some cause => exact (List.append_nil log).symm

/-- What a run brings tells nothing of the view but the ids of what is selected in it. -/
theorem runAlike_outcome {selector selector' : Selector} {view view' : View} {final final' : Progress σ}
    (brought : final'.unplaced = final.unplaced)
    (selectedIds : selector'.selectedIds view'.elements = selector.selectedIds view.elements)
    (log log' : List Registration) (own : Registration) (model : String) (failure : Option DeclarationError) :
    RunAlike selector selector' log log' (final.outcome view (log ++ [own]) model failure)
      (final'.outcome view' (log' ++ [own]) model failure) := by
  have taken : final'.unplaced.ids = final.unplaced.ids := congrArg Progress.ids brought
  refine ⟨?_, ⟨own :: (final.unplaced.outcome view [] model failure).log, ?_, ?_⟩, ?_, ?_⟩
  · rw [map_unplaced_outcome, map_unplaced_outcome, brought]
    cases failure <;> rfl
  · rw [calls_outcome, List.append_assoc]
    rfl
  · rw [calls_outcome, List.append_assoc, brought]
    cases failure <;> rfl
  · rw [Progress.outcome_ids, Progress.outcome_ids]
    exact taken.symm
  · rw [Progress.outcome_view, Progress.outcome_view]
    exact selectedIds.symm

theorem bindView_resolved {options : Options} {view : View} {model : String}
    (resolved : view.resolvedModel? options = some model) (ids : IdSource σ) (state : σ)
    (log : List Registration) :
    let bound := bindElements options.rules ids view.elements 0 (.start state)
    bindView options ids view state log =
      bound.2.1.outcome { view with elements := bound.1 } (log ++ [.own model options.bindings]) model
        bound.2.2 := by
  rw [bindView, resolved]
  dsimp only
  generalize bindElements options.rules ids view.elements 0 (.start state) = bound
  obtain ⟨elements, progress, failure⟩ := bound
  cases failure <;> rfl

/-- Views whose selected elements have the same ids and declarations in the same order are bound alike,
whatever else they hold and however the elements are selected. The other elements stay as they are, and
of those that are selected all but the id. -/
theorem bindView_of_declared {options options' : Options} {view view' : View} (ids : IdSource σ) (state : σ)
    (log log' : List Registration)
    (model : view.resolvedModel? options = view'.resolvedModel? options')
    (bindings : options.bindings = options'.bindings) (policy : options.onError = options'.onError)
    (legacy : options.legacyModelFallthrough = options'.legacyModelFallthrough)
    (declared : view.declared options.rules.selector = view'.declared options'.rules.selector) :
    let first := bindView options ids view state log
    let second := bindView options' ids view' state log'
    RunAlike options.rules.selector options'.rules.selector log log' first second ∧
      List.Forall₂ (Element.Spared options.rules.selector) view.elements first.view.elements ∧
      List.Forall₂ (Element.Spared options'.rules.selector) view'.elements second.view.elements := by
  intro first second
  cases resolved : view.resolvedModel? options with
  | none =>
    have same : first = _ := bindView_unresolved resolved ids state log
    have same' : second = _ := bindView_unresolved (model ▸ resolved) ids state log'
    have untouched (selector : Selector) (elements : List Element) :
        List.Forall₂ (Element.Spared selector) elements elements :=
      List.forall₂_same.mpr fun _ _ => ⟨rfl, fun _ => rfl⟩
    rw [same, same']
    refine ⟨⟨rfl, ⟨[], by simp⟩, rfl, ?_⟩, untouched _ _, untouched _ _⟩
    rw [Selector.selectedIds_eq, Selector.selectedIds_eq]
    exact congrArg (List.map (·.1)) declared
  | some name =>
    have compileOptions : options.rules.compileOptions = options'.rules.compileOptions :=
      congrArg CompileOptions.mk legacy
    have onError : options.rules.onError = options'.rules.onError := policy
    have listed : view.elements.filterMap options.rules.selector.declared? =
        view'.elements.filterMap options'.rules.selector.declared? := declared
    have same : first = _ := bindView_resolved resolved ids state log
    have same' : second = _ := bindView_resolved (model ▸ resolved) ids state log'
    -- Both runs are the one over the ids and declarations that the views have in common.
    have one := bindDeclared_of_elements options.rules ids view.elements 0 (.start state)
    have two := bindDeclared_of_elements options'.rules ids view'.elements 0 (.start state)
    rw [compileOptions, onError, listed, two] at one
    have spares := bindElements_spares options.rules ids view.elements 0 (.start state)
    have spares' := bindElements_spares options'.rules ids view'.elements 0 (.start state)
    rw [same, same', Progress.outcome_view, Progress.outcome_view]
    generalize bindElements options.rules ids view.elements 0 (.start state) = bound at one spares ⊢
    generalize bindElements options'.rules ids view'.elements 0 (.start state) = bound' at one spares' ⊢
    obtain ⟨elements, progress, failure⟩ := bound
    obtain ⟨elements', progress', failure'⟩ := bound'
    obtain ⟨selectedIds, brought, rfl⟩ : options'.rules.selector.selectedIds elements' =
        options.rules.selector.selectedIds elements ∧ progress'.unplaced = progress.unplaced ∧
        failure' = failure := by
      simpa only [Prod.mk.injEq] using one
    rw [bindings]
    exact ⟨runAlike_outcome brought selectedIds log log' _ name failure', spares, spares'⟩

/-- Of the first view every element with a declaration is selected, of the second those that mention a
model; one refused declaration stands at another position. -/
def plainlySelected : View where
  model := some "person"
  elements := [
    { attributes := KeyMap.ofList [("data-bind", "value:a,model:m")] },
    { id := some "x", attributes := KeyMap.ofList [("data-bind", "model:m,value")] },
    { attributes := KeyMap.ofList [("data-bind", "class:b,model:mm")] }]

def selectedByModel : View where
  elements := [
    { attributes := KeyMap.ofList [("bind", "value:z"), ("data-bind", "model:m,value:z")] },
    { tag := some "p", attributes := KeyMap.ofList [("bind", "value:a,model:m")] },
    { tag := some "hr" },
    { id := some "x", attributes := KeyMap.ofList [("bind", "model:m,value")] },
    { attributes := KeyMap.ofList [("bind", "class:b,model:mm"), ("data-bind", "value:")] }]

def byModel : Options :=
  { model := some "person", bindOptions := some ⟨"bind", some "m"⟩, onError := .skip }

theorem bindView_of_declared_interleaved :
    plainlySelected.declared (Options.rules { onError := .skip }).selector =
        [(none, "value:a,model:m"), (some "x", "model:m,value"), (none, "class:b,model:mm")] ∧
      selectedByModel.declared byModel.rules.selector =
        [(none, "value:a,model:m"), (some "x", "model:m,value"), (none, "class:b,model:mm")] ∧
      RunAlike (Options.rules { onError := .skip }).selector byModel.rules.selector [] []
        (bindView { onError := .skip } (.numbered "e") plainlySelected 1 [])
        (bindView byModel (.numbered "e") selectedByModel 1 []) := by
  have one : plainlySelected.declared (Options.rules { onError := .skip }).selector =
      [(none, "value:a,model:m"), (some "x", "model:m,value"), (none, "class:b,model:mm")] := by
    decide +kernel
  have two : selectedByModel.declared byModel.rules.selector =
      [(none, "value:a,model:m"), (some "x", "model:m,value"), (none, "class:b,model:mm")] := by
    decide +kernel
  have model : plainlySelected.resolvedModel? { onError := .skip } =
      selectedByModel.resolvedModel? byModel := rfl
  have declared := one.trans two.symm
  exact ⟨one, two, (bindView_of_declared (.numbered "e") 1 [] [] model rfl rfl rfl declared).1⟩

end DataBind
