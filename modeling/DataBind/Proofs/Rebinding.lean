import DataBind.Proofs.RunEnds

/-!
# Binding a view again

A run over the elements that another run left behind reads the ids that were written. It takes the same
steps without the id source, so it changes nothing and brings the same, less the generated ids. It also
stops where the first one did.
-/

namespace DataBind

variable {σ τ : Type} {rules : BindRules} {ids : IdSource σ} {index : Nat} {element after : Element}
  {elements elementsAfter rest : List Element} {progress next final : Progress σ}
  {failure : Option DeclarationError}

/-- The same without an id taken, next to the state of another id source. -/
def Progress.untaken (progress : Progress σ) (state : τ) : Progress τ :=
  ⟨state, progress.bindings, [], progress.skipped⟩

def Report.withoutIds (report : Report) : Report :=
  { report with generatedIds := [] }

theorem BindStep.again (step : BindStep rules ids index element progress after next)
    (others : IdSource τ) (state : τ) :
    BindStep rules others index after (progress.untaken state) after (next.untaken state) := by
  cases step with
  | unselected absent => exact .unselected absent
  | skipped selected refused policy => exact .skipped selected refused policy
  | identified selected compiled known => exact .identified selected compiled known
  | generated selected compiled unknown taken =>
    -- The element has the id now that the first step wrote.
    exact .identified selected compiled rfl

theorem BindRun.again (run : BindRun rules ids index elements progress elementsAfter final)
    (others : IdSource τ) (state : τ) :
    BindRun rules others index elementsAfter (progress.untaken state) elementsAfter
      (final.untaken state) := by
  induction run with
  | nil => exact .nil
  | cons step run ih => exact .cons (step.again others state) ih

theorem Progress.outcome_untaken (final : Progress σ) (state : τ) (view view' : View)
    (log log' : List Registration) (model : String) (failure : Option DeclarationError) :
    ((final.untaken state).outcome view' log' model failure).result =
      (final.outcome view log model failure).result.map Report.withoutIds := by
  cases failure <;> rfl

/-- Binding a view that was bound before, with any id source, leaves it as it is, takes no id, and gives
the same report without generated ids or the same error. -/
theorem bindView_again (options : Options) (ids : IdSource σ) (view : View) (state : σ)
    (log : List Registration) (others : IdSource τ) (state' : τ) (log' : List Registration) :
    let first := bindView options ids view state log
    let second := bindView options others first.view state' log'
    second.view = first.view ∧ second.ids = state' ∧
      second.result = first.result.map Report.withoutIds := by
  intro first second
  cases resolved : view.resolvedModel? options with
  | none =>
    have once : first = _ := bindView_unresolved resolved ids state log
    have resolvedAgain : first.view.resolvedModel? options = none := by
      rw [once]
      exact resolved
    have twice : second = _ := bindView_unresolved resolvedAgain others state' log'
    rw [twice, once]
    exact ⟨rfl, rfl, rfl⟩
  | some model =>
    obtain ⟨reached, reachedAfter, rest, final, failure, split, run, stop⟩ :=
      exists_run_of_bindElements options.rules ids view.elements 0 (.start state)
    have once : first = _ := bindView_of_run resolved split run stop log
    have kept : first.view = { view with elements := reachedAfter ++ rest } := by
      rw [once, Progress.outcome_view]
    have resolvedAgain : first.view.resolvedModel? options = some model := by
      rw [kept]
      exact resolved
    have splitAgain : first.view.elements = reachedAfter ++ rest := by rw [kept]
    have twice : second = _ :=
      bindView_of_run resolvedAgain splitAgain (run.again others state') stop log'
    refine ⟨?_, ?_, ?_⟩
    · rw [twice, Progress.outcome_view, kept]
    · rw [twice, Progress.outcome_ids]
      rfl
    · rw [twice, once]
      exact final.outcome_untaken state' _ _ _ _ model failure

end DataBind
