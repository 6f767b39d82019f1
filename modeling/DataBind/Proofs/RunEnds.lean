import DataBind.Proofs.BindRun

/-!
# Where a run ends

Elements are bound one after the other until none is left or one ends the run. Those before have gone
through a `BindRun`, the rest is as it was. Every outcome of a view, report or error, is told by such a
run and the place where it stops.
-/

namespace DataBind

variable {σ : Type}

/-- A run stops after the last element, or at one whose declaration ends it. -/
inductive BindStop (rules : BindRules) : List Element → Option DeclarationError → Prop
  | finished : BindStop rules [] none
  | aborted {element : Element} {rest : List Element} {cause : DeclarationError}
      (aborts : BindAborts rules element cause) : BindStop rules (element :: rest) (some cause)

variable {rules : BindRules} {ids : IdSource σ} {index : Nat}
  {reached reachedAfter rest elements elementsAfter : List Element} {progress final : Progress σ}
  {failure : Option DeclarationError}

theorem bindElements_of_stop (stop : BindStop rules rest failure) (ids : IdSource σ) (index : Nat)
    (progress : Progress σ) :
    bindElements rules ids rest index progress = (rest, progress, failure) := by
  cases stop with
  | finished => rfl
  | aborted aborts => exact bindElements_aborts aborts ids _ index progress

theorem bindElements_of_run (run : BindRun rules ids index reached progress reachedAfter final)
    (stop : BindStop rules rest failure) :
    bindElements rules ids (reached ++ rest) index progress = (reachedAfter ++ rest, final, failure) := by
  induction run with
  | nil => exact bindElements_of_stop stop ids _ _
  | cons step run ih => rw [List.cons_append, bindElements_step step, ih, List.cons_append]

/-- Whatever comes out, the elements that were reached went through a run. -/
theorem exists_run_of_bindElements (rules : BindRules) (ids : IdSource σ) (elements : List Element)
    (index : Nat) (progress : Progress σ) :
    ∃ reached reachedAfter rest final failure, elements = reached ++ rest ∧
      BindRun rules ids index reached progress reachedAfter final ∧ BindStop rules rest failure := by
  induction elements generalizing index progress with
  | nil => exact ⟨[], [], [], progress, none, rfl, .nil, .finished⟩
  | cons element rest ih =>
    rcases bindStep_or_aborts rules ids index element progress with
      ⟨after, next, step⟩ | ⟨cause, aborts⟩
    · obtain ⟨reached, reachedAfter, rest, final, failure, rfl, run, stop⟩ := ih (index + 1) next
      exact ⟨element :: reached, after :: reachedAfter, rest, final, failure, rfl, .cons step run, stop⟩
    · exact ⟨[], [], element :: rest, progress, some cause, rfl, .nil, .aborted aborts⟩

/-! ### Views -/

/-- The outcome of a view whose elements brought `final` and ended with `failure`. -/
def Progress.outcome (final : Progress σ) (view : View) (log : List Registration) (model : String) :
    Option DeclarationError → BindOutcome σ
  | some cause => ⟨view, final.ids, log, .error (.declaration cause)⟩
  | none =>
    ⟨view, final.ids, log ++ [.added model final.bindings],
      .ok ⟨model, final.bindings, final.generatedIds, final.skipped⟩⟩

@[simp] theorem Progress.outcome_view (final : Progress σ) (view : View) (log : List Registration)
    (model : String) (failure : Option DeclarationError) :
    (final.outcome view log model failure).view = view := by
  cases failure <;> rfl

@[simp] theorem Progress.outcome_ids (final : Progress σ) (view : View) (log : List Registration)
    (model : String) (failure : Option DeclarationError) :
    (final.outcome view log model failure).ids = final.ids := by
  cases failure <;> rfl

theorem bindView_unresolved {options : Options} {view : View}
    (unresolved : view.resolvedModel? options = none) (ids : IdSource σ) (state : σ)
    (log : List Registration) :
    bindView options ids view state log = ⟨view, state, log, .error noModel⟩ := by
  rw [bindView, unresolved]

theorem bindView_of_run {options : Options} {view : View} {state : σ} {model : String}
    (resolved : view.resolvedModel? options = some model) (split : view.elements = reached ++ rest)
    (run : BindRun options.rules ids 0 reached (.start state) reachedAfter final)
    (stop : BindStop options.rules rest failure) (log : List Registration) :
    bindView options ids view state log =
      final.outcome { view with elements := reachedAfter ++ rest } (log ++ [.own model options.bindings])
        model failure := by
  rw [bindView, resolved]
  simp only [split, bindElements_of_run run stop]
  cases failure <;> rfl

/-- A run of a view that gives a report is a run over all its elements, and the report is what it
brought. -/
theorem bindView_eq_ok {options : Options} {view : View} {state : σ} {log : List Registration}
    {report : Report} (h : (bindView options ids view state log).result = .ok report) :
    ∃ final, BindRun options.rules ids 0 view.elements (.start state)
        (bindView options ids view state log).view.elements final ∧
      report.bindings = final.bindings ∧ report.generatedIds = final.generatedIds ∧
      report.skipped = final.skipped := by
  cases resolved : view.resolvedModel? options with
  | none =>
    rw [bindView_unresolved resolved] at h
    cases h
  | some model =>
    obtain ⟨reached, reachedAfter, rest, final, failure, split, run, stop⟩ :=
      exists_run_of_bindElements options.rules ids view.elements 0 (.start state)
    rw [bindView_of_run resolved split run stop] at h ⊢
    cases stop with
    | finished =>
      cases h
      rw [List.append_nil] at split
      exact ⟨final, by simpa [split] using run, rfl, rfl, rfl⟩
    | aborted aborts => cases h

theorem bindings_of_report {options : Options} {view : View} {state : σ} {log : List Registration}
    {report : Report} (h : (bindView options ids view state log).result = .ok report) :
    report.bindings = KeyMap.empty.insertAll
      ((bindView options ids view state log).view.elements.filterMap options.rules.binding?) := by
  obtain ⟨final, run, merged, -⟩ := bindView_eq_ok h
  exact merged.trans run.bindings

end DataBind
