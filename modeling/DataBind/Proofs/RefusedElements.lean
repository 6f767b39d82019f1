import DataBind.Proofs.RunEnds

/-!
# Refused elements

A selected element is refused if its declaration does not compile. Under one policy a run stops at the
first refused element, under the other it reports every one with its position and goes on.
-/

namespace DataBind

variable {σ : Type} {rules : BindRules} {ids : IdSource σ} {index : Nat} {element after : Element}
  {elements elementsAfter rest : List Element} {progress next final : Progress σ}
  {cause : DeclarationError} {failure : Option DeclarationError}

/-- The declaration of a refused element and the error it is refused with. -/
def BindRules.refusal? (rules : BindRules) (element : Element) : Option (String × DeclarationError) :=
  (rules.selector.declaration? element).bind fun declaration =>
    match compile rules.compileOptions declaration with
    | .ok _ => none
    | .error cause => some (declaration, cause)

theorem BindRules.refusal?_eq_some {declaration : String} :
    rules.refusal? element = some (declaration, cause) ↔
      rules.selector.declaration? element = some declaration ∧
        compile rules.compileOptions declaration = .error cause := by
  rw [refusal?, Option.bind_eq_some_iff]
  constructor
  · rintro ⟨text, selected, h⟩
    split at h
    · cases h
    · rename_i refused
      cases h
      exact ⟨selected, refused⟩
  · rintro ⟨selected, refused⟩
    exact ⟨declaration, selected, by rw [refused]⟩

theorem BindRules.refusal?_of_spec? {spec : Spec} (bound : rules.spec? element = some spec) :
    rules.refusal? element = none := by
  obtain ⟨declaration, selected, compiled⟩ := spec?_eq_some.mp bound
  rw [refusal?, selected, Option.bind_some, compiled]

theorem BindRules.refusal?_of_unselected (absent : rules.selector.declaration? element = none) :
    rules.refusal? element = none := by
  rw [refusal?, absent]
  rfl

theorem BindRules.element_cases (rules : BindRules) (element : Element) :
    (rules.selector.declaration? element = none ∧ rules.refusal? element = none ∧
      rules.spec? element = none) ∨
    (∃ declaration cause, rules.selector.declaration? element = some declaration ∧
      rules.refusal? element = some (declaration, cause) ∧ rules.spec? element = none) ∨
    ∃ declaration spec, rules.selector.declaration? element = some declaration ∧
      rules.refusal? element = none ∧ rules.spec? element = some spec := by
  cases selected : rules.selector.declaration? element with
  | none => exact .inl ⟨rfl, refusal?_of_unselected selected, spec?_of_unselected selected⟩
  | some declaration =>
    cases compiled : compile rules.compileOptions declaration with
    | error cause =>
      have refused := refusal?_eq_some.mpr ⟨selected, compiled⟩
      exact .inr (.inl ⟨declaration, cause, rfl, refused, spec?_of_error selected compiled⟩)
    | ok spec =>
      have bound := spec?_eq_some.mpr ⟨declaration, selected, compiled⟩
      exact .inr (.inr ⟨declaration, spec, rfl, refusal?_of_spec? bound, bound⟩)

theorem bindAborts_iff :
    BindAborts rules element cause ↔
      rules.onError = .abort ∧ ∃ declaration, rules.refusal? element = some (declaration, cause) := by
  constructor
  · rintro ⟨declaration, selected, refused, policy⟩
    exact ⟨policy, declaration, BindRules.refusal?_eq_some.mpr ⟨selected, refused⟩⟩
  · rintro ⟨policy, declaration, h⟩
    obtain ⟨selected, refused⟩ := BindRules.refusal?_eq_some.mp h
    exact ⟨declaration, selected, refused, policy⟩

/-- The line of the report on an element, given its position. -/
def BindRules.skipped? (rules : BindRules) (entry : Element × Nat) : Option Skipped :=
  (rules.refusal? entry.1).map fun refusal => ⟨entry.2, refusal.1, refusal.2.message⟩

def BindRules.skippedFrom (rules : BindRules) (elements : List Element) (index : Nat) : List Skipped :=
  (elements.zipIdx index).filterMap rules.skipped?

theorem BindStep.refusal_cases (step : BindStep rules ids index element progress after next) :
    (rules.refusal? element = none ∧ next.skipped = progress.skipped) ∨
      ∃ declaration cause, rules.refusal? element = some (declaration, cause) ∧ rules.onError = .skip ∧
        next = progress.skip index declaration cause := by
  cases step with
  | unselected absent => exact .inl ⟨BindRules.refusal?_of_unselected absent, rfl⟩
  | skipped selected refused policy =>
    exact .inr ⟨_, _, BindRules.refusal?_eq_some.mpr ⟨selected, refused⟩, policy, rfl⟩
  | identified selected compiled known =>
    have bound := BindRules.spec?_eq_some.mpr ⟨_, selected, compiled⟩
    exact .inl ⟨BindRules.refusal?_of_spec? bound, rfl⟩
  | generated selected compiled unknown taken =>
    have bound := BindRules.spec?_eq_some.mpr ⟨_, selected, compiled⟩
    exact .inl ⟨BindRules.refusal?_of_spec? bound, rfl⟩

theorem BindStep.skipped_eq (step : BindStep rules ids index element progress after next) :
    next.skipped = progress.skipped ++ (rules.skipped? (element, index)).toList := by
  rcases step.refusal_cases with ⟨good, same⟩ | ⟨declaration, cause, refused, -, rfl⟩
  · rw [BindRules.skipped?, good, same]
    exact (List.append_nil _).symm
  · rw [BindRules.skipped?, refused]
    rfl

theorem BindRun.skipped_eq (run : BindRun rules ids index elements progress elementsAfter final) :
    final.skipped = progress.skipped ++ rules.skippedFrom elements index := by
  induction run with
  | nil => exact (List.append_nil _).symm
  | cons step run ih =>
    rw [ih, step.skipped_eq, List.append_assoc]
    congr 1
    rw [BindRules.skippedFrom, BindRules.skippedFrom, List.zipIdx_cons, List.filterMap_cons]
    cases rules.skipped? _ <;> rfl

theorem skippedFrom_of_not_refused (good : ∀ element ∈ elements, rules.refusal? element = none)
    (index : Nat) : rules.skippedFrom elements index = [] := by
  refine List.filterMap_eq_nil_iff.mpr ?_
  rintro ⟨element, position⟩ member
  rw [BindRules.skipped?, good element (List.fst_mem_of_mem_zipIdx member)]
  rfl

/-- The first refused element comes first in the report. -/
theorem skippedFrom_append (good : ∀ element ∈ elements, rules.refusal? element = none)
    {declaration : String} (refused : rules.refusal? element = some (declaration, cause))
    (rest : List Element) (index : Nat) :
    rules.skippedFrom (elements ++ element :: rest) index =
      ⟨index + elements.length, declaration, cause.message⟩ ::
        rules.skippedFrom rest (index + elements.length + 1) := by
  have here : rules.skipped? (element, index + elements.length) =
      some ⟨index + elements.length, declaration, cause.message⟩ := by
    rw [BindRules.skipped?, refused]
    rfl
  have earlier := skippedFrom_of_not_refused good index
  unfold BindRules.skippedFrom at earlier ⊢
  rw [List.zipIdx_append, List.filterMap_append, earlier, List.nil_append, List.zipIdx_cons,
    List.filterMap_cons_some here]

theorem BindRun.not_refused (run : BindRun rules ids index elements progress elementsAfter final)
    (policy : rules.onError = .abort) : ∀ element ∈ elements, rules.refusal? element = none := by
  induction run with
  | nil => exact List.forall_mem_nil _
  | cons step run ih =>
    refine List.forall_mem_cons.mpr ⟨?_, ih⟩
    rcases step.refusal_cases with ⟨good, -⟩ | ⟨_, _, -, skip, -⟩
    · exact good
    · rw [policy] at skip
      cases skip

theorem mem_skippedFrom_zero {skipped : Skipped} :
    skipped ∈ rules.skippedFrom elements 0 ↔
      ∃ element cause, elements[skipped.index]? = some element ∧
        rules.refusal? element = some (skipped.declaration, cause) ∧ skipped.error = cause.message := by
  rw [BindRules.skippedFrom, List.mem_filterMap]
  constructor
  · rintro ⟨⟨element, position⟩, member, h⟩
    obtain ⟨⟨declaration, cause⟩, refused, rfl⟩ := Option.map_eq_some_iff.mp h
    exact ⟨element, cause, List.mem_zipIdx_iff_getElem?.mp member, refused, rfl⟩
  · rintro ⟨element, cause, placed, refused, text⟩
    refine ⟨(element, skipped.index), List.mem_zipIdx_iff_getElem?.mpr placed, ?_⟩
    rw [BindRules.skipped?, refused, Option.map_some, ← text]

theorem ascending_skippedFrom (rules : BindRules) (elements : List Element) (index : Nat) :
    (rules.skippedFrom elements index).Pairwise fun earlier later => earlier.index < later.index := by
  have positions : (elements.zipIdx index).Pairwise fun earlier later => earlier.2 < later.2 := by
    rw [← List.pairwise_map (f := Prod.snd), List.zipIdx_map_snd]
    exact List.pairwise_lt_range'
  refine positions.filterMap _ ?_
  intro earlier later before skipped h skipped' h'
  obtain ⟨refusal, -, rfl⟩ := Option.map_eq_some_iff.mp h
  obtain ⟨refusal', -, rfl⟩ := Option.map_eq_some_iff.mp h'
  exact before

end DataBind
