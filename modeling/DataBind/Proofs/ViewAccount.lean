import DataBind.Proofs.MergedBindings
import DataBind.Proofs.RefusedElements
import DataBind.Proofs.TakenIds

/-!
# What binding changes in a view

Binding writes ids and changes nothing else. An id is written onto every bound element without one that
the run gets to, the ids are those that the id source gives in a row, and it is asked for no other. A
report accounts for every element.
-/

namespace DataBind

variable {σ : Type} {rules : BindRules} {ids : IdSource σ} {index position : Nat} {element : Element}
  {elements elementsAfter reached reachedAfter rest : List Element} {progress final : Progress σ}
  {failure : Option DeclarationError}

/-- A run gets to a position unless it stops at a refused element before. -/
def BindRules.Reaches (rules : BindRules) (elements : List Element) (position : Nat) : Prop :=
  rules.onError = .abort → ∀ earlier ∈ elements.take position, rules.refusal? earlier = none

/-- What a run does to a view and to the id source, whether it ends early or not. -/
structure IdAccount (rules : BindRules) (ids : IdSource σ) (view : View) (state : σ) (after : View)
    (stateAfter : σ) : Prop where
  model : after.model = view.model
  frame : after.elements.map Element.anonymous = view.elements.map Element.anonymous
  written : ∀ position element, view.elements[position]? = some element →
    rules.takesId element = true → rules.Reaches view.elements position →
    ∃ id, after.elements[position]? = some { element with id := some id }
  kept : ∀ position element, view.elements[position]? = some element →
    ¬(rules.takesId element = true ∧ rules.Reaches view.elements position) →
    after.elements[position]? = some element
  /-- The source is asked once for each id that is written and its answers are written in order. -/
  taken : ids.take (writtenIds view.elements after.elements).length state =
    (writtenIds view.elements after.elements, stateAfter)

inductive Fate
  | unselected
  | skipped
  | bound

/-- What a report and the view after the run say of an element. -/
def Fate.Meets (options : Options) (report : Report) (after : View) (position : Nat)
    (element : Element) : Fate → Prop
  | unselected => options.rules.selector.declaration? element = none
  | skipped => position ∈ report.skipped.map (·.index)
  | bound => ∃ final id spec, after.elements[position]? = some final ∧ Bound options final id spec ∧
      selectorFor id ∈ report.bindings.keys

structure ReportAccount (options : Options) (view after : View) (report : Report) : Prop where
  generated : report.generatedIds = writtenIds view.elements after.elements
  ascending : report.skipped.Pairwise fun earlier later => earlier.index < later.index
  skipped : ∀ skipped, skipped ∈ report.skipped ↔ ∃ element cause,
    view.elements[skipped.index]? = some element ∧
      options.rules.refusal? element = some (skipped.declaration, cause) ∧
      skipped.error = cause.message
  fate : ∀ position element, view.elements[position]? = some element →
    ∃! fate, Fate.Meets options report after position element fate

/-! ### Elements -/

theorem BindRun.getElem? (run : BindRun rules ids index elements progress elementsAfter final)
    (placed : elements[position]? = some element) :
    (rules.takesId element = false ∧ elementsAfter[position]? = some element) ∨
      rules.takesId element = true ∧ ∃ id, elementsAfter[position]? = some { element with id := some id } := by
  induction run generalizing position with
  | nil => cases placed
  | cons step run ih =>
    cases position with
    | zero =>
      cases placed
      rcases step.ids_cases with ⟨none, rfl, -⟩ | ⟨id, one, -, rfl, -⟩
      · exact .inl ⟨none, rfl⟩
      · exact .inr ⟨one, id, rfl⟩
    | succ position => exact ih placed

/-- No element is written at or behind the place where a run stops. -/
theorem BindStop.not_reaches (stop : BindStop rules rest failure) (beyond : reached.length ≤ position)
    (placed : (reached ++ rest)[position]? = some element) (takes : rules.takesId element = true) :
    ¬rules.Reaches (reached ++ rest) position := by
  intro reaches
  rw [List.getElem?_append_right beyond] at placed
  cases stop with
  | finished => cases placed
  | @aborted bad rest cause aborts =>
    obtain ⟨policy, declaration, refused⟩ := bindAborts_iff.mp aborts
    rcases Nat.eq_or_lt_of_le beyond with same | behind
    · -- The run stops at the element itself, which is refused.
      rw [← same, Nat.sub_self] at placed
      cases placed
      obtain ⟨spec, bound, -⟩ := BindRules.takesId_iff.mp takes
      rw [BindRules.refusal?_of_spec? bound] at refused
      cases refused
    · have earlier : bad ∈ (reached ++ bad :: rest).take position := by
        rw [List.take_append, List.mem_append]
        refine .inr (List.mem_take_iff_getElem.mpr ⟨0, by simp; omega, rfl⟩)
      rw [reaches policy bad earlier] at refused
      cases refused

/-- An element in front of the stop is as the run left it, one behind as it was before. -/
theorem getElem?_of_run (run : BindRun rules ids 0 reached progress reachedAfter final)
    (stop : BindStop rules rest failure) (placed : (reached ++ rest)[position]? = some element) :
    (rules.takesId element = true ∧ rules.Reaches (reached ++ rest) position ∧
      ∃ id, (reachedAfter ++ rest)[position]? = some { element with id := some id }) ∨
    ¬(rules.takesId element = true ∧ rules.Reaches (reached ++ rest) position) ∧
      (reachedAfter ++ rest)[position]? = some element := by
  have length : reachedAfter.length = reached.length := run.length_eq
  by_cases inside : position < reached.length
  · have reaches : rules.Reaches (reached ++ rest) position := by
      intro policy earlier member
      rw [List.take_append_of_le_length inside.le] at member
      exact run.not_refused policy earlier (List.mem_of_mem_take member)
    rw [List.getElem?_append_left inside] at placed
    rw [List.getElem?_append_left (length ▸ inside)]
    rcases run.getElem? placed with ⟨keeps, same⟩ | ⟨takes, written⟩
    · exact .inr ⟨fun h => by simp [keeps] at h, same⟩
    · exact .inl ⟨takes, reaches, written⟩
  · have beyond : reached.length ≤ position := by omega
    refine .inr ⟨fun ⟨takes, reaches⟩ => stop.not_reaches beyond placed takes reaches, ?_⟩
    rw [List.getElem?_append_right beyond] at placed
    rw [List.getElem?_append_right (length ▸ beyond), length]
    exact placed

theorem idAccount_of_run {state : σ} {view : View} (split : view.elements = reached ++ rest)
    (run : BindRun rules ids 0 reached (.start state) reachedAfter final)
    (stop : BindStop rules rest failure) :
    IdAccount rules ids view state { view with elements := reachedAfter ++ rest } final.ids := by
  refine ⟨rfl, ?_, ?_, ?_, ?_⟩
  · rw [split, List.map_append, List.map_append, run.anonymous]
  · intro position element placed takes reaches
    rw [split] at placed reaches
    rcases getElem?_of_run run stop placed with ⟨-, -, written⟩ | ⟨free, -⟩
    · exact written
    · exact absurd ⟨takes, reaches⟩ free
  · intro position element placed free
    rw [split] at placed free
    rcases getElem?_of_run run stop placed with ⟨takes, reaches, -⟩ | ⟨-, same⟩
    · exact absurd ⟨takes, reaches⟩ free
    · exact same
  · rw [split]
    exact run.take_written rest

/-! ### Reports -/

theorem mem_skipped_index {report : Report}
    (skipped : report.skipped = rules.skippedFrom elements 0) (placed : elements[position]? = some element) :
    position ∈ report.skipped.map (·.index) ↔ ∃ refusal, rules.refusal? element = some refusal := by
  rw [skipped]
  constructor
  · intro member
    obtain ⟨entry, listed, rfl⟩ := List.mem_map.mp member
    obtain ⟨found, cause, same, refused, -⟩ := mem_skippedFrom_zero.mp listed
    rw [placed] at same
    cases same
    exact ⟨_, refused⟩
  · rintro ⟨⟨declaration, cause⟩, refused⟩
    refine List.mem_map.mpr ⟨⟨position, declaration, cause.message⟩, ?_, rfl⟩
    exact mem_skippedFrom_zero.mpr ⟨element, cause, placed, refused, rfl⟩

theorem BindRun.spec?_getElem? (run : BindRun rules ids index elements progress elementsAfter final)
    (placed : elements[position]? = some element) :
    ∃ after, elementsAfter[position]? = some after ∧ rules.spec? after = rules.spec? element := by
  rcases run.getElem? placed with ⟨-, same⟩ | ⟨-, id, written⟩
  · exact ⟨element, same, rfl⟩
  · exact ⟨_, written, rfl⟩

/-- Exactly the elements that compile end with an id and a key. -/
theorem exists_bound_iff {options : Options} {report : Report}
    (run : BindRun options.rules ids index elements progress elementsAfter final)
    (merged : report.bindings = KeyMap.empty.insertAll (elementsAfter.filterMap options.rules.binding?))
    (placed : elements[position]? = some element) :
    (∃ after id spec, elementsAfter[position]? = some after ∧ Bound options after id spec ∧
      selectorFor id ∈ report.bindings.keys) ↔ ∃ spec, options.rules.spec? element = some spec := by
  obtain ⟨after, found, same⟩ := run.spec?_getElem? placed
  constructor
  · rintro ⟨other, id, spec, found', bound, -⟩
    rw [found] at found'
    cases found'
    exact ⟨spec, same.symm.trans bound.compiled⟩
  · rintro ⟨spec, compiled⟩
    have member : after ∈ elementsAfter := List.mem_of_getElem? found
    obtain ⟨id, named⟩ := run.identified member (same.trans compiled)
    have bound : Bound options after id spec := ⟨same.trans compiled, named⟩
    refine ⟨after, id, spec, found, bound, ?_⟩
    rw [merged]
    exact mem_keys_bindings.mpr ⟨after, member, id, spec, bound, rfl⟩

theorem existsUnique_fate {options : Options} {report : Report} {after : View}
    (skipped : position ∈ report.skipped.map (·.index) ↔
      ∃ refusal, options.rules.refusal? element = some refusal)
    (bound : (∃ final id spec, after.elements[position]? = some final ∧ Bound options final id spec ∧
      selectorFor id ∈ report.bindings.keys) ↔ ∃ spec, options.rules.spec? element = some spec) :
    ∃! fate, Fate.Meets options report after position element fate := by
  have meets : ∀ fate, Fate.Meets options report after position element fate ↔
      match fate with
      | .unselected => options.rules.selector.declaration? element = none
      | .skipped => ∃ refusal, options.rules.refusal? element = some refusal
      | .bound => ∃ spec, options.rules.spec? element = some spec := by
    intro fate
    cases fate
    exacts [.rfl, skipped, bound]
  simp only [meets]
  rcases options.rules.element_cases element with
    ⟨selected, refused, compiled⟩ | ⟨declaration, cause, selected, refused, compiled⟩ |
      ⟨declaration, spec, selected, refused, compiled⟩
  · refine ⟨.unselected, selected, fun fate h => ?_⟩
    cases fate <;> simp_all
  · refine ⟨.skipped, ⟨_, refused⟩, fun fate h => ?_⟩
    cases fate <;> simp_all
  · refine ⟨.bound, ⟨spec, compiled⟩, fun fate h => ?_⟩
    cases fate <;> simp_all

theorem reportAccount_of_report {options : Options} {view : View} {state : σ} {log : List Registration}
    {report : Report} (h : (bindView options ids view state log).result = .ok report) :
    ReportAccount options view (bindView options ids view state log).view report := by
  obtain ⟨final, run, merged, generated, skipped⟩ := bindView_eq_ok h
  have listed : report.skipped = options.rules.skippedFrom view.elements 0 := skipped.trans run.skipped_eq
  refine ⟨?_, ?_, ?_, ?_⟩
  · have written := run.written []
    rw [List.append_nil, List.append_nil] at written
    rw [generated, run.taken.1, written]
    rfl
  · rw [listed]
    exact ascending_skippedFrom _ _ _
  · intro entry
    rw [listed]
    exact mem_skippedFrom_zero
  · intro position element placed
    exact existsUnique_fate (mem_skipped_index listed placed)
      (exists_bound_iff run (merged.trans run.bindings) placed)

/-- Without a model nothing changes and no id is taken. With one, an id is written onto exactly the bound
elements without one that the run gets to, and a report lists the ids and the refused elements. -/
theorem bindView_accounts (options : Options) (ids : IdSource σ) (view : View) (state : σ)
    (log : List Registration) :
    let outcome := bindView options ids view state log
    (options.model = none ∧ view.model = none → outcome.view = view ∧ outcome.ids = state) ∧
    (options.model ≠ none ∨ view.model ≠ none →
      IdAccount options.rules ids view state outcome.view outcome.ids ∧
      ∀ report, outcome.result = .ok report → ReportAccount options view outcome.view report) := by
  intro outcome
  constructor
  · rintro ⟨unset, absent⟩
    have unresolved : view.resolvedModel? options = none := by
      rw [View.resolvedModel?, unset, absent]
      rfl
    have same := bindView_unresolved unresolved ids state log
    exact ⟨congrArg BindOutcome.view same, congrArg BindOutcome.ids same⟩
  · intro set
    refine ⟨?_, fun report => reportAccount_of_report⟩
    obtain ⟨model, resolved⟩ : ∃ model, view.resolvedModel? options = some model := by
      rw [← Option.ne_none_iff_exists', View.resolvedModel?, ne_eq, Option.or_eq_none_iff]
      tauto
    obtain ⟨reached, reachedAfter, rest, final, failure, split, run, stop⟩ :=
      exists_run_of_bindElements options.rules ids view.elements 0 (.start state)
    have same := bindView_of_run resolved split run stop log
    have account := idAccount_of_run split run stop
    simpa [outcome, same] using account

/-- The fifth element is refused, with elements that need an id on both sides of it. -/
def brokenView : View where
  model := some "person"
  elements := [
    { attributes := KeyMap.ofList [("data-bind", "value:a")] },
    { id := some "p", attributes := KeyMap.ofList [("data-bind", "class:b")] },
    { tag := some "hr" },
    { attributes := KeyMap.ofList [("data-bind", "value:c|+f"), ("type", "text")] },
    { attributes := KeyMap.ofList [("data-bind", "value:d:e")] },
    { attributes := KeyMap.ofList [("data-bind", "events:blur")] }]

def brokenReport : Report where
  model := "person"
  bindings := KeyMap.ofList [("#p", { types := some ["blur"] }), ("#q", { observe := some (.one "a") }),
    ("#r", { observe := some (.one "c"), onGet := some "f" })]
  generatedIds := ["q", "r", "p"]
  skipped := [⟨4, "value:d:e",
    "BIND-010: Malformed operand 'value:d:e': expected exactly one ':' separator, found 2"⟩]

theorem bindView_accounts_broken :
    (bindView {} (.cycle ["q", "r", "p"]) { brokenView with model := none } 0 []).ids = 0 ∧
      brokenView.model ≠ none ∧
      (bindView { onError := .skip } (.cycle ["q", "r", "p"]) brokenView 0 []).result = .ok brokenReport ∧
      ReportAccount { onError := .skip } brokenView
        (bindView { onError := .skip } (.cycle ["q", "r", "p"]) brokenView 0 []).view brokenReport ∧
      (bindView {} (.cycle ["q", "r", "p"]) brokenView 0 []).ids = 2 ∧
      IdAccount (Options.rules {}) (.cycle ["q", "r", "p"]) brokenView 0
        (bindView {} (.cycle ["q", "r", "p"]) brokenView 0 []).view 2 := by
  have unset := (bindView_accounts {} (.cycle ["q", "r", "p"]) { brokenView with model := none } 0 []).1
    ⟨rfl, rfl⟩
  have named : brokenView.model ≠ none := nofun
  have reported :
      (bindView { onError := .skip } (.cycle ["q", "r", "p"]) brokenView 0 []).result =
        .ok brokenReport := by
    decide +kernel
  have lenient := (bindView_accounts { onError := .skip } (.cycle ["q", "r", "p"]) brokenView 0 []).2
    (.inr named)
  have asked : (bindView {} (.cycle ["q", "r", "p"]) brokenView 0 []).ids = 2 := by decide +kernel
  have strict := (bindView_accounts {} (.cycle ["q", "r", "p"]) brokenView 0 []).2 (.inr named)
  exact ⟨unset.2, named, reported, lenient.2 brokenReport reported, asked, asked ▸ strict.1⟩

end DataBind
