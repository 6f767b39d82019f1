import DataBind.Proofs.ErrorPolicies
import DataBind.Proofs.IdClashes
import DataBind.Proofs.Reordered

/-!
# The order of elements

Where every selected element has an id, a run that skips neither takes an id nor changes an element. Its
bindings are the last ones under each id, so they do not depend on the order of elements with different ids,
and the refused declarations are reported in the order of their elements.
-/

namespace DataBind

variable {σ τ : Type} {rules : BindRules} {ids : IdSource σ} {index : Nat} {element after : Element}
  {elements elementsAfter : List Element} {progress next final : Progress σ}

/-- Every element that is selected has an id. -/
def Selector.Identified (selector : Selector) (elements : List Element) : Prop :=
  ∀ element ∈ elements, selector.selects element = true → element.id ≠ none

/-- The declaration that was skipped and the error it was refused with. -/
def Skipped.refusal (skipped : Skipped) : String × String :=
  (skipped.declaration, skipped.error)

/-! ### Runs that take no id -/

theorem BindStep.unchanged (step : BindStep rules ids index element progress after next)
    (identified : rules.selector.selects element = true → element.id ≠ none) :
    after = element ∧ next.ids = progress.ids ∧ next.generatedIds = progress.generatedIds := by
  rcases step.ids_cases with ⟨-, kept⟩ | ⟨id, takes, unknown, -⟩
  · exact kept
  · obtain ⟨spec, bound, -⟩ := BindRules.takesId_iff.mp takes
    obtain ⟨declaration, selected, -⟩ := BindRules.spec?_eq_some.mp bound
    have selects : rules.selector.selects element = true := by rw [Selector.selects, selected]; rfl
    exact absurd unknown (identified selects)

theorem BindRun.unchanged (run : BindRun rules ids index elements progress elementsAfter final)
    (identified : rules.selector.Identified elements) :
    elementsAfter = elements ∧ final.ids = progress.ids ∧ final.generatedIds = progress.generatedIds := by
  induction run with
  | nil => exact ⟨rfl, rfl, rfl⟩
  | cons step run ih =>
    obtain ⟨first, later⟩ := List.forall_mem_cons.mp identified
    obtain ⟨rfl, ids, generated⟩ := step.unchanged first
    obtain ⟨rfl, idsAfter, generatedAfter⟩ := ih later
    exact ⟨rfl, idsAfter.trans ids, generatedAfter.trans generated⟩

/-- The bindings that elements with ids are merged to. -/
def BindRules.merged (rules : BindRules) (elements : List Element) : Bindings :=
  KeyMap.empty.insertAll (elements.filterMap rules.binding?)

theorem bindView_of_identified {options : Options} {view : View} {model : String}
    (policy : options.onError = .skip) (resolved : view.resolvedModel? options = some model)
    (identified : options.rules.selector.Identified view.elements) (ids : IdSource σ) (state : σ)
    (log : List Registration) :
    let merged := options.rules.merged view.elements
    bindView options ids view state log =
      ⟨view, state, log ++ [.own model options.bindings] ++ [.added model merged],
        .ok ⟨model, merged, [], options.rules.skippedFrom view.elements 0⟩⟩ := by
  intro merged
  obtain ⟨elementsAfter, final, run⟩ : ∃ elementsAfter final,
      BindRun options.rules ids 0 view.elements (.start state) elementsAfter final :=
    exists_run_of_skip policy ids 0 view.elements (.start state)
  obtain ⟨rfl, taken, generated⟩ := run.unchanged identified
  have bindings : final.bindings = merged := run.bindings
  have skipped : final.skipped = options.rules.skippedFrom view.elements 0 := run.skipped_eq
  have whole := bindView_of_run resolved (List.append_nil _).symm run .finished log
  rw [whole, Progress.outcome, taken, generated, bindings, skipped, List.append_nil]
  rfl

/-! ### Reordered elements -/

theorem BindRules.merged_of_reordered {others : List Element}
    (reordered : Reordered Element.id elements others) : rules.merged elements = rules.merged others := by
  refine KeyMap.ext_get? fun key => ?_
  rw [merged, merged, KeyMap.get?_insertAll_empty, KeyMap.get?_insertAll_empty]
  refine reordered.lastUnder selectorFor_injective ?_ key
  rintro element _ entry
  obtain ⟨spec, id, -, known, rfl⟩ := BindRules.binding?_eq_some.mp entry
  exact ⟨id, known, rfl⟩

theorem map_refusal_skippedFrom (rules : BindRules) (elements : List Element) (index : Nat) :
    (rules.skippedFrom elements index).map Skipped.refusal =
      elements.filterMap fun element =>
        (rules.refusal? element).map fun refusal => (refusal.1, refusal.2.message) := by
  induction elements generalizing index with
  | nil => rfl
  | cons element rest ih =>
    have later := ih (index + 1)
    unfold BindRules.skippedFrom at later ⊢
    rw [List.zipIdx_cons, List.filterMap_cons, List.filterMap_cons, ← later, BindRules.skipped?]
    cases rules.refusal? element <;> rfl

/-- Where all selected elements have ids, the elements may be listed in any order that leaves those with one
id as they are: both runs give a report, take no id, and bring the same bindings and the same refusals. -/
theorem bindView_reordered {options : Options} {view view' : View} {model : String}
    (policy : options.onError = .skip) (resolved : view.resolvedModel? options = some model)
    (resolved' : view'.resolvedModel? options = some model)
    (reordered : Reordered Element.id view.elements view'.elements)
    (identified : options.rules.selector.Identified view.elements)
    (ids : IdSource σ) (ids' : IdSource τ) (state : σ) (state' : τ) (log log' : List Registration) :
    let first := bindView options ids view state log
    let second := bindView options ids' view' state' log'
    (first.view = view ∧ first.ids = state) ∧ (second.view = view' ∧ second.ids = state') ∧
      ∃ report report', first.result = .ok report ∧ second.result = .ok report' ∧
        report.generatedIds = [] ∧ report'.generatedIds = [] ∧
        report'.bindings = report.bindings ∧
        (bindingsToJson report'.bindings).compact = (bindingsToJson report.bindings).compact ∧
        (bindingsToJson report'.bindings).pretty = (bindingsToJson report.bindings).pretty ∧
        (report'.skipped.map Skipped.refusal).Perm (report.skipped.map Skipped.refusal) := by
  intro first second
  have identified' : options.rules.selector.Identified view'.elements :=
    fun element member => identified element (reordered.perm.mem_iff.mpr member)
  have one : first = _ := bindView_of_identified policy resolved identified ids state log
  have two : second = _ := bindView_of_identified policy resolved' identified' ids' state' log'
  have bindings : options.rules.merged view'.elements = options.rules.merged view.elements :=
    (BindRules.merged_of_reordered reordered).symm
  rw [one, two]
  refine ⟨⟨rfl, rfl⟩, ⟨rfl, rfl⟩, _, _, rfl, rfl, rfl, rfl, bindings, ?_, ?_, ?_⟩
  · exact congrArg (fun merged => (bindingsToJson merged).compact) bindings
  · exact congrArg (fun merged => (bindingsToJson merged).pretty) bindings
  · rw [map_refusal_skippedFrom, map_refusal_skippedFrom]
    exact (reordered.perm.filterMap _).symm

def firstBound : Element := { id := some "a", attributes := KeyMap.ofList [("data-bind", "value:x")] }

/-- Overwrites the one before. -/
def secondBound : Element := { id := some "a", attributes := KeyMap.ofList [("data-bind", "class:k|-f")] }

def otherBound : Element := { id := some "b", attributes := KeyMap.ofList [("data-bind", "events:blur")] }

def refusedElement : Element := { id := some "c", attributes := KeyMap.ofList [("data-bind", "value:")] }

def otherRefused : Element := { id := some "b", attributes := KeyMap.ofList [("data-bind", "value")] }

def plainElement : Element := { tag := some "hr" }

def listedView : View where
  model := some "person"
  elements := [firstBound, plainElement, otherBound, refusedElement, otherRefused, secondBound]

/-- Both pairs of elements with one id are as before. -/
def relistedView : View where
  elements := [otherBound, otherRefused, firstBound, secondBound, refusedElement, plainElement]

def listedReport : Report where
  model := "m"
  bindings := KeyMap.ofList [
    ("#a", { attributes := [⟨"class", some (.one "k"), some ⟨.updateView, "f"⟩⟩] }),
    ("#b", { types := some ["blur"] })]
  generatedIds := []
  skipped := [
    ⟨3, "value:", "BIND-010: Malformed operand '': at least one model attribute is required"⟩,
    ⟨4, "value", "BIND-010: Malformed operand 'value': expected exactly one ':' separator, found 0"⟩]

def relistedReport : Report :=
  { listedReport with skipped := [
    ⟨1, "value", "BIND-010: Malformed operand 'value': expected exactly one ':' separator, found 0"⟩,
    ⟨4, "value:", "BIND-010: Malformed operand '': at least one model attribute is required"⟩] }

def skippingOptions : Options :=
  { model := some "m", onError := .skip }

theorem bindView_reordered_interleaved :
    listedView.resolvedModel? skippingOptions = some "m" ∧
      relistedView.resolvedModel? skippingOptions = some "m" ∧
      Reordered Element.id listedView.elements relistedView.elements ∧
      skippingOptions.rules.selector.Identified listedView.elements ∧
      (bindView skippingOptions (.numbered "e") listedView 1 []).result = .ok listedReport ∧
      (bindView skippingOptions (.cycle ["d"]) relistedView 0 []).result = .ok relistedReport ∧
      (relistedReport.skipped.map Skipped.refusal).Perm (listedReport.skipped.map Skipped.refusal) := by
  have policy : skippingOptions.onError = .skip := rfl
  have resolved : listedView.resolvedModel? skippingOptions = some "m" := rfl
  have resolved' : relistedView.resolvedModel? skippingOptions = some "m" := rfl
  have reordered : Reordered Element.id listedView.elements relistedView.elements := by decide +kernel
  have identified : skippingOptions.rules.selector.Identified listedView.elements := by
    unfold Selector.Identified
    decide +kernel
  have listed : (bindView skippingOptions (.numbered "e") listedView 1 []).result = .ok listedReport := by
    decide +kernel
  have relisted : (bindView skippingOptions (.cycle ["d"]) relistedView 0 []).result = .ok relistedReport := by
    decide +kernel
  obtain ⟨-, -, report, report', one, two, -, -, -, -, -, skipped⟩ :=
    bindView_reordered policy resolved resolved' reordered identified (.numbered "e") (.cycle ["d"]) 1 0 [] []
  obtain rfl : listedReport = report := Except.ok.inj (listed.symm.trans one)
  obtain rfl : relistedReport = report' := Except.ok.inj (relisted.symm.trans two)
  exact ⟨resolved, resolved', reordered, identified, listed, relisted, skipped⟩

end DataBind
