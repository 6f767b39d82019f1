import DataBind.Proofs.TakenIds
import DataBind.View.Session

/-!
# Counting the ids that are taken

A metered source gives the ids of another one and counts how often it is asked. A session does the same
with it, so the count tells how many ids the session takes.
-/

namespace DataBind

variable {σ : Type}

namespace IdSource

def metered (ids : IdSource σ) : IdSource (σ × Nat) where
  next state := ((ids.next state.1).1, (ids.next state.1).2, state.2 + 1)

theorem take_metered (ids : IdSource σ) (n : Nat) (state : σ) (asked : Nat) :
    ids.metered.take n (state, asked) = ((ids.take n state).1, (ids.take n state).2, asked + n) := by
  induction n generalizing state asked with
  | zero => rfl
  | succ n ih =>
    have next : ids.metered.next (state, asked) =
        ((ids.next state).1, (ids.next state).2, asked + 1) := rfl
    rw [take_succ, take_succ, next, ih, Nat.add_right_comm, Nat.add_assoc]

end IdSource

def Progress.unmetered (progress : Progress (σ × Nat)) : Progress σ :=
  ⟨progress.ids.1, progress.bindings, progress.generatedIds, progress.skipped⟩

def BindOutcome.unmetered (outcome : BindOutcome (σ × Nat)) : BindOutcome σ :=
  ⟨outcome.view, outcome.ids.1, outcome.log, outcome.result⟩

def Session.unmetered (session : Session (σ × Nat)) : Session σ :=
  ⟨session.view, session.ids.1, session.log⟩

variable {rules : BindRules} {ids : IdSource σ} {index : Nat} {element after : Element}
  {elements elementsAfter : List Element} {progress next final : Progress (σ × Nat)}

theorem BindStep.unmetered (step : BindStep rules ids.metered index element progress after next) :
    BindStep rules ids index element progress.unmetered after next.unmetered := by
  cases step with
  | unselected absent => exact .unselected absent
  | skipped selected refused policy => exact .skipped selected refused policy
  | identified selected compiled known => exact .identified selected compiled known
  | generated selected compiled unknown taken =>
    cases taken
    exact .generated selected compiled unknown rfl

theorem BindRun.unmetered (run : BindRun rules ids.metered index elements progress elementsAfter final) :
    BindRun rules ids index elements progress.unmetered elementsAfter final.unmetered := by
  induction run with
  | nil => exact .nil
  | cons step run ih => exact .cons step.unmetered ih

theorem bindView_metered (options : Options) (ids : IdSource σ) (view : View) (state : σ × Nat)
    (log : List Registration) :
    (bindView options ids.metered view state log).unmetered = bindView options ids view state.1 log := by
  cases resolved : view.resolvedModel? options with
  | none =>
    rw [bindView_unresolved resolved, bindView_unresolved resolved]
    rfl
  | some model =>
    obtain ⟨reached, reachedAfter, rest, final, failure, split, run, stop⟩ :=
      exists_run_of_bindElements options.rules ids.metered view.elements 0 (.start state)
    have plain : BindRun options.rules ids 0 reached (.start state.1) reachedAfter final.unmetered :=
      run.unmetered
    rw [bindView_of_run resolved split run stop, bindView_of_run resolved split plain stop]
    cases failure <;> rfl

namespace Session

theorem step_metered (ids : IdSource σ) (session : Session (σ × Nat)) (step : SessionStep) :
    (session.step ids.metered step).unmetered = session.unmetered.step ids step := by
  cases step with
  | bind options =>
    have same := bindView_metered options ids session.view session.ids session.log
    exact congrArg (fun outcome => Session.mk outcome.view outcome.ids outcome.log) same
  | append element => rfl
  | setModel model => rfl

theorem run_metered (ids : IdSource σ) (session : Session (σ × Nat)) (steps : List SessionStep) :
    (session.run ids.metered steps).unmetered = session.unmetered.run ids steps := by
  induction steps generalizing session with
  | nil => rfl
  | cons step steps ih =>
    have rest := ih (session.step ids.metered step)
    rw [step_metered] at rest
    exact rest

/-- The session with the count of its source at zero. -/
def metered (session : Session σ) : Session (σ × Nat) :=
  ⟨session.view, (session.ids, 0), session.log⟩

/-- How often a session asks its id source. -/
def asked (ids : IdSource σ) (session : Session σ) (steps : List SessionStep) : Nat :=
  (session.metered.run ids.metered steps).ids.2

end Session

end DataBind
