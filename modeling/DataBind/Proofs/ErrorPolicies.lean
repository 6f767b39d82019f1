import DataBind.Proofs.RefusedElements
import DataBind.Proofs.TakenIds

/-!
# Aborting and skipping

The two policies differ at refused elements only. Where no element is refused they bind a view alike.
Otherwise a run that aborts is the part of the run that skips which comes before the first refused
element.
-/

namespace DataBind

variable {σ : Type} {rules : BindRules} {ids : IdSource σ} {index : Nat} {element after bad : Element}
  {elements elementsAfter more moreAfter reached reachedAfter rest : List Element}
  {progress next middle final : Progress σ}

def Options.aborting (options : Options) : Options :=
  { options with onError := .abort }

def Options.skipping (options : Options) : Options :=
  { options with onError := .skip }

/-- How a run that aborts compares with the run that skips, whose report lists `first` first. -/
structure StoppedAt (options : Options) (ids : IdSource σ) (view : View) (state : σ) (first : Skipped)
    (aborted skipped : BindOutcome σ) : Prop where
  error : ∃ element cause, view.elements[first.index]? = some element ∧
    options.rules.refusal? element = some (first.declaration, cause) ∧ first.error = cause.message ∧
    aborted.result = .error (.declaration cause)
  model : aborted.view.model = view.model
  before : aborted.view.elements.take first.index = skipped.view.elements.take first.index
  onward : aborted.view.elements.drop first.index = view.elements.drop first.index
  /-- The ids that were taken are those written before the place where the run stopped. -/
  taken : ∃ written,
    writtenIds (view.elements.take first.index) (aborted.view.elements.take first.index) = written ∧
      ids.take written.length state = (written, aborted.ids)

/-! ### Runs -/

theorem BindStep.skipping {options : Options}
    (step : BindStep options.aborting.rules ids index element progress after next) :
    BindStep options.skipping.rules ids index element progress after next := by
  cases step with
  | unselected absent => exact .unselected absent
  | skipped selected refused policy => cases policy
  | identified selected compiled known => exact .identified selected compiled known
  | generated selected compiled unknown taken => exact .generated selected compiled unknown taken

theorem BindRun.skipping {options : Options}
    (run : BindRun options.aborting.rules ids index elements progress elementsAfter final) :
    BindRun options.skipping.rules ids index elements progress elementsAfter final := by
  induction run with
  | nil => exact .nil
  | cons step run ih => exact .cons step.skipping ih

theorem BindRun.append (run : BindRun rules ids index elements progress elementsAfter middle)
    (onward : BindRun rules ids (index + elements.length) more middle moreAfter final) :
    BindRun rules ids index (elements ++ more) progress (elementsAfter ++ moreAfter) final := by
  induction run with
  | nil => exact onward
  | cons step run ih =>
    rw [List.length_cons, Nat.add_comm _ 1, ← Nat.add_assoc] at onward
    exact .cons step (ih onward)

theorem exists_run_of_skip (policy : rules.onError = .skip) (ids : IdSource σ) (index : Nat)
    (elements : List Element) (progress : Progress σ) :
    ∃ elementsAfter final, BindRun rules ids index elements progress elementsAfter final := by
  induction elements generalizing index progress with
  | nil => exact ⟨[], progress, .nil⟩
  | cons element rest ih =>
    rcases bindStep_or_aborts rules ids index element progress with ⟨after, next, step⟩ | ⟨cause, aborts⟩
    · obtain ⟨restAfter, final, run⟩ := ih (index + 1) next
      exact ⟨after :: restAfter, final, .cons step run⟩
    · obtain ⟨abort, -⟩ := bindAborts_iff.mp aborts
      rw [policy] at abort
      cases abort

/-- The run that skips goes the same way to the first refused element, reports it and gets to the end. -/
theorem BindRun.exists_skipping {options : Options} {declaration : String} {cause : DeclarationError}
    {state : σ} (run : BindRun options.aborting.rules ids 0 reached (.start state) reachedAfter final)
    (refused : options.rules.refusal? bad = some (declaration, cause)) (rest : List Element) :
    ∃ restAfter last later,
      BindRun options.skipping.rules ids 0 (reached ++ bad :: rest) (.start state)
        (reachedAfter ++ bad :: restAfter) last ∧
      last.skipped = ⟨reached.length, declaration, cause.message⟩ :: later := by
  obtain ⟨selected, compiled⟩ := BindRules.refusal?_eq_some.mp refused
  have policy : options.skipping.rules.onError = .skip := rfl
  obtain ⟨restAfter, last, onward⟩ := exists_run_of_skip policy ids (0 + reached.length + 1) rest
    (final.skip (0 + reached.length) declaration cause)
  have whole := run.skipping.append (.cons (.skipped selected compiled policy) onward)
  have good : ∀ element ∈ reached, options.skipping.rules.refusal? element = none :=
    run.not_refused rfl
  have reported := whole.skipped_eq
  rw [skippedFrom_append good refused rest 0, Nat.zero_add] at reported
  exact ⟨restAfter, last, _, whole, reported⟩

/-! ### Views -/

section Views

variable {options : Options} {view : View} {state : σ} {model : String}

theorem resolvedModel?_aborting (view : View) (options : Options) :
    view.resolvedModel? options.aborting = view.resolvedModel? options := rfl

theorem resolvedModel?_skipping (view : View) (options : Options) :
    view.resolvedModel? options.skipping = view.resolvedModel? options := rfl

/-- Where nothing is refused the policy does not matter. -/
theorem bindView_of_not_refused (resolved : view.resolvedModel? options = some model)
    (run : BindRun options.aborting.rules ids 0 view.elements (.start state) elementsAfter final)
    (log : List Registration) :
    bindView options.aborting ids view state log = bindView options.skipping ids view state log ∧
      (bindView options.skipping ids view state log).result =
        .ok ⟨model, final.bindings, final.generatedIds, []⟩ := by
  have split : view.elements = view.elements ++ [] := (List.append_nil _).symm
  have strict := bindView_of_run ((resolvedModel?_aborting view options).trans resolved) split run
    .finished log
  have lenient := bindView_of_run ((resolvedModel?_skipping view options).trans resolved) split
    run.skipping .finished log
  have unreported : final.skipped = [] := by
    rw [run.skipped_eq]
    exact skippedFrom_of_not_refused (run.not_refused rfl) 0
  refine ⟨strict.trans lenient.symm, ?_⟩
  rw [lenient, ← unreported]
  rfl

theorem exists_stoppedAt (resolved : view.resolvedModel? options = some model)
    (split : view.elements = reached ++ bad :: rest)
    (run : BindRun options.aborting.rules ids 0 reached (.start state) reachedAfter final)
    {cause : DeclarationError} (aborts : BindAborts options.aborting.rules bad cause)
    (log : List Registration) :
    ∃ report first later,
      (bindView options.skipping ids view state log).result = .ok report ∧
        report.skipped = first :: later ∧
        StoppedAt options ids view state first (bindView options.aborting ids view state log)
          (bindView options.skipping ids view state log) := by
  obtain ⟨-, declaration, refused⟩ := bindAborts_iff.mp aborts
  obtain ⟨restAfter, last, later, whole, listed⟩ := run.exists_skipping refused rest
  have strict := bindView_of_run ((resolvedModel?_aborting view options).trans resolved) split run
    (.aborted aborts) log
  have lenient := bindView_of_run ((resolvedModel?_skipping view options).trans resolved)
    (split.trans (List.append_nil _).symm) whole .finished log
  have start : view.elements.take reached.length = reached := by simp [split]
  have startAfter (behind : List Element) : (reachedAfter ++ behind).take reached.length = reachedAfter := by
    simp [← run.length_eq]
  have taken := run.take_written []
  rw [List.append_nil, List.append_nil] at taken
  refine ⟨_, _, later, by rw [lenient]; rfl, listed, ?_⟩
  rw [strict, lenient]
  exact {
    error := ⟨bad, cause, by simp [split], refused, rfl, rfl⟩
    model := rfl
    before := by simp [← run.length_eq]
    onward := by simp [split, ← run.length_eq]
    taken := ⟨_, congrArg₂ writtenIds start (startAfter _), taken⟩ }

end Views

/-- Without a model both policies give the same error. With one, the run that skips gives a report, and
the run that aborts is the same run if nothing was skipped and stops at the first refused element if
something was. -/
theorem bindView_aborting_skipping (options : Options) (ids : IdSource σ) (view : View) (state : σ)
    (log : List Registration) :
    let aborted := bindView options.aborting ids view state log
    let skipped := bindView options.skipping ids view state log
    (view.resolvedModel? options = none →
      aborted = ⟨view, state, log, .error noModel⟩ ∧ skipped = ⟨view, state, log, .error noModel⟩) ∧
    (view.resolvedModel? options ≠ none →
      ∃ report, skipped.result = .ok report ∧
        ((∃ other, aborted.result = .ok other) ↔ report.skipped = []) ∧
        (report.skipped = [] → aborted = skipped) ∧
        ∀ first later, report.skipped = first :: later →
          StoppedAt options ids view state first aborted skipped) := by
  intro aborted skipped
  constructor
  · intro unresolved
    have strict := (resolvedModel?_aborting view options).trans unresolved
    have lenient := (resolvedModel?_skipping view options).trans unresolved
    exact ⟨bindView_unresolved strict ids state log, bindView_unresolved lenient ids state log⟩
  · intro set
    obtain ⟨model, resolved⟩ := Option.ne_none_iff_exists'.mp set
    obtain ⟨reached, reachedAfter, rest, final, failure, split, run, stop⟩ :=
      exists_run_of_bindElements options.aborting.rules ids view.elements 0 (.start state)
    cases stop with
    | finished =>
      rw [List.append_nil] at split
      obtain ⟨same, reported⟩ := bindView_of_not_refused resolved (split ▸ run) log
      refine ⟨_, reported, iff_of_true ⟨_, same ▸ reported⟩ rfl, fun _ => same, ?_⟩
      intro first later listed
      cases listed
    | aborted aborts =>
      obtain ⟨report, first, later, reported, listed, stopped⟩ :=
        exists_stoppedAt resolved split run aborts log
      obtain ⟨_, cause, -, -, -, failed⟩ := stopped.error
      refine ⟨report, reported, ?_, ?_, ?_⟩
      · rw [failed, listed]
        simp
      · rw [listed]
        nofun
      · rw [listed]
        rintro _ _ ⟨⟩
        exact stopped

/-- Ids are needed before and behind the two refused elements. -/
def haltedView : View where
  model := some "person"
  elements := [
    { attributes := KeyMap.ofList [("data-bind", "value:a")] },
    { id := some "x", attributes := KeyMap.ofList [("data-bind", "value:")] },
    { attributes := KeyMap.ofList [("data-bind", "class:b|-f")] },
    { attributes := KeyMap.ofList [("data-bind", "value:c|f")] }]

def haltedReport : Report where
  model := "person"
  bindings := KeyMap.ofList [("#e1", { observe := some (.one "a") }),
    ("#e2", { attributes := [⟨"class", some (.one "b"), some ⟨.updateView, "f"⟩⟩] })]
  generatedIds := ["e1", "e2"]
  skipped := [
    ⟨1, "value:", "BIND-010: Malformed operand '': at least one model attribute is required"⟩,
    ⟨3, "value:c|f", "BIND-020: Bad filter format: 'f'"⟩]

theorem bindView_aborting_skipping_halted :
    View.resolvedModel? { haltedView with model := none } {} = none ∧
      bindView (Options.aborting {}) (.numbered "e") { haltedView with model := none } 1 [] =
        ⟨{ haltedView with model := none }, 1, [], .error noModel⟩ ∧
      haltedView.resolvedModel? {} ≠ none ∧
      (bindView (Options.skipping {}) (.numbered "e") haltedView 1 []).result = .ok haltedReport ∧
      StoppedAt {} (.numbered "e") haltedView 1
        ⟨1, "value:", "BIND-010: Malformed operand '': at least one model attribute is required"⟩
        (bindView (Options.aborting {}) (.numbered "e") haltedView 1 [])
        (bindView (Options.skipping {}) (.numbered "e") haltedView 1 []) := by
  have unresolved : View.resolvedModel? { haltedView with model := none } {} = none := rfl
  have failed := (bindView_aborting_skipping {} (.numbered "e") { haltedView with model := none } 1 []).1
    unresolved
  have resolved : haltedView.resolvedModel? {} ≠ none := nofun
  have reported :
      (bindView (Options.skipping {}) (.numbered "e") haltedView 1 []).result = .ok haltedReport := by
    decide +kernel
  obtain ⟨report, same, -, -, stopped⟩ :=
    (bindView_aborting_skipping {} (.numbered "e") haltedView 1 []).2 resolved
  obtain rfl : haltedReport = report := Except.ok.inj (reported.symm.trans same)
  exact ⟨unresolved, failed.1, resolved, reported, stopped _ _ rfl⟩

end DataBind
