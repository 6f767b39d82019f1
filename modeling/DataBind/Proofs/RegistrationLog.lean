import DataBind.Proofs.RunEnds

/-!
# The log of an engine

Calls of `bindView` in a row, of whatever views and with whatever id sources, on one engine. What a call
adds to the log is told by its result: nothing without a model, the bindings of the caller's own, and
after them those of the report if there is one. So the bindings added last are those of the last report.
-/

namespace DataBind

structure BindCall where
  State : Type
  ids : IdSource State
  state : State
  options : Options
  view : View

def BindCall.outcome (call : BindCall) (log : List Registration) : BindOutcome call.State :=
  bindView call.options call.ids call.view call.state log

/-- Calls in a row on one engine: the result of each, and the log after the last. -/
def bindCalls : List BindCall → List Registration →
    List (Except BindError Report) × List Registration
  | [], log => ([], log)
  | call :: calls, log =>
    let outcome := call.outcome log
    let (results, log) := bindCalls calls outcome.log
    (outcome.result :: results, log)

/-- A call on an engine with the log so far, its result and the log after it. -/
inductive CallLogged (call : BindCall) (log : List Registration) :
    Except BindError Report → List Registration → Prop
  | unresolved (unset : call.options.model = none) (absent : call.view.model = none) :
      CallLogged call log (.error noModel) log
  | refused {model : String} {cause : DeclarationError}
      (resolved : call.options.model.or call.view.model = some model) :
      CallLogged call log (.error (.declaration cause)) (log ++ [.own model call.options.bindings])
  | bound {report : Report} (resolved : call.options.model.or call.view.model = some report.model) :
      CallLogged call log (.ok report) (log ++
        [.own report.model call.options.bindings, .added report.model report.bindings])

inductive CallsLogged : List BindCall → List Registration → List (Except BindError Report) →
    List Registration → Prop
  | nil {log : List Registration} : CallsLogged [] log [] log
  | cons {call : BindCall} {calls : List BindCall} {log next final : List Registration}
      {result : Except BindError Report} {results : List (Except BindError Report)}
      (first : CallLogged call log result next) (rest : CallsLogged calls next results final) :
      CallsLogged (call :: calls) log (result :: results) final

def lastReport? (results : List (Except BindError Report)) : Option Report :=
  results.reverse.findSome? Except.toOption

variable {call : BindCall} {calls : List BindCall} {log next final : List Registration}
  {result : Except BindError Report} {results : List (Except BindError Report)}

/-! ### One call -/

theorem BindCall.logged (call : BindCall) (log : List Registration) :
    CallLogged call log (call.outcome log).result (call.outcome log).log := by
  cases resolved : call.view.resolvedModel? call.options with
  | none =>
    obtain ⟨unset, absent⟩ := Option.or_eq_none_iff.mp resolved
    rw [outcome, bindView_unresolved resolved]
    exact .unresolved unset absent
  | some model =>
    obtain ⟨reached, reachedAfter, rest, final, failure, split, run, stop⟩ :=
      exists_run_of_bindElements call.options.rules call.ids call.view.elements 0 (.start call.state)
    rw [outcome, bindView_of_run resolved split run stop]
    cases failure with
    | some cause => exact .refused resolved
    | none =>
      have twice (own added : Registration) : log ++ [own] ++ [added] = log ++ [own, added] := by simp
      rw [Progress.outcome, twice]
      exact .bound resolved

theorem CallLogged.log_prefix (logged : CallLogged call log result next) : log <+: next := by
  cases logged with
  | unresolved => exact List.prefix_rfl
  | refused => exact List.prefix_append _ _
  | bound => exact List.prefix_append _ _

theorem lastAdded?_append (log entries : List Registration) :
    lastAdded? (log ++ entries) = (lastAdded? entries).or (lastAdded? log) := by
  rw [lastAdded?, List.reverse_append, List.findSome?_append]
  rfl

theorem CallLogged.lastAdded? (logged : CallLogged call log result next) :
    lastAdded? next = (result.toOption.map (·.bindings)).or (lastAdded? log) := by
  cases logged with
  | unresolved => rfl
  | refused => exact lastAdded?_append log _
  | bound => exact lastAdded?_append log _

/-! ### Calls in a row -/

theorem bindCalls_logged (calls : List BindCall) (log : List Registration) :
    CallsLogged calls log (bindCalls calls log).1 (bindCalls calls log).2 := by
  induction calls generalizing log with
  | nil => exact .nil
  | cons call calls ih => exact .cons (call.logged log) (ih (call.outcome log).log)

theorem CallsLogged.log_prefix (logged : CallsLogged calls log results final) : log <+: final := by
  induction logged with
  | nil => exact List.prefix_rfl
  | cons first rest ih => exact first.log_prefix.trans ih

theorem lastReport?_cons (result : Except BindError Report) (results : List (Except BindError Report)) :
    lastReport? (result :: results) = (lastReport? results).or result.toOption := by
  rw [lastReport?, List.reverse_cons, List.findSome?_append]
  cases result <;> rfl

theorem CallsLogged.lastAdded? (logged : CallsLogged calls log results final) :
    lastAdded? final = ((lastReport? results).map (·.bindings)).or (lastAdded? log) := by
  induction logged with
  | nil => rfl
  | cons first rest ih =>
    rw [ih, first.lastAdded?, lastReport?_cons, ← Option.or_assoc]
    cases lastReport? _ <;> rfl

/-- Calls on one engine only add to its log, each what its result tells, and the bindings added last are
those of the last report, whatever calls without one came after it. -/
theorem bindCalls_registers (calls : List BindCall) (log : List Registration) :
    let run := bindCalls calls log
    CallsLogged calls log run.1 run.2 ∧ log <+: run.2 ∧
      lastAdded? run.2 = ((lastReport? run.1).map (·.bindings)).or (lastAdded? log) := by
  intro run
  have logged : CallsLogged calls log run.1 run.2 := bindCalls_logged calls log
  exact ⟨logged, logged.log_prefix, logged.lastAdded?⟩

end DataBind
