import DataBind.Proofs.NumberedIds
import DataBind.Proofs.RunEnds

/-!
# Ids that a run takes

A run takes one id for each bound element that has none, in the order of the elements. `writtenIds`
reads off two lists of elements which ids were written from the first to the second; along a run these
are the ids that were taken.
-/

namespace DataBind

variable {σ : Type} {rules : BindRules} {ids : IdSource σ} {index : Nat} {element after : Element}
  {elements elementsAfter : List Element} {progress next final : Progress σ}

def BindRules.binds (rules : BindRules) (element : Element) : Bool :=
  (rules.spec? element).isSome

/-- A bound element without an id. -/
def BindRules.takesId (rules : BindRules) (element : Element) : Bool :=
  rules.binds element && element.id.isNone

theorem BindRules.takesId_iff :
    rules.takesId element = true ↔ ∃ spec, rules.spec? element = some spec ∧ element.id = none := by
  simp [takesId, binds, Option.isSome_iff_exists]

theorem BindRules.takesId_of_unbound (unbound : rules.spec? element = none) :
    rules.takesId element = false := by
  simp [takesId, binds, unbound]

/-- A step leaves its element and the id source alone, or it takes the next id and writes it. -/
theorem BindStep.ids_cases (step : BindStep rules ids index element progress after next) :
    (rules.takesId element = false ∧ after = element ∧ next.ids = progress.ids ∧
      next.generatedIds = progress.generatedIds) ∨
    ∃ id, rules.takesId element = true ∧ element.id = none ∧ after = { element with id := some id } ∧
      ids.next progress.ids = (id, next.ids) ∧ next.generatedIds = progress.generatedIds ++ [id] := by
  cases step with
  | unselected absent =>
    have unbound := BindRules.spec?_of_unselected absent
    exact .inl ⟨BindRules.takesId_of_unbound unbound, rfl, rfl, rfl⟩
  | skipped selected refused policy =>
    have unbound := BindRules.spec?_of_error selected refused
    exact .inl ⟨BindRules.takesId_of_unbound unbound, rfl, rfl, rfl⟩
  | identified selected compiled known =>
    refine .inl ⟨?_, rfl, rfl, List.append_nil _⟩
    simp [BindRules.takesId, known]
  | @generated declaration id spec state selected compiled unknown taken =>
    have bound : rules.spec? element = some spec :=
      BindRules.spec?_eq_some.mpr ⟨declaration, selected, compiled⟩
    exact .inr ⟨id, BindRules.takesId_iff.mpr ⟨spec, bound, unknown⟩, unknown, rfl, taken, rfl⟩

/-- A run takes one id for each bound element without, in order. -/
theorem BindRun.taken (run : BindRun rules ids index elements progress elementsAfter final) :
    final.generatedIds =
        progress.generatedIds ++ (ids.take (elements.countP rules.takesId) progress.ids).1 ∧
      final.ids = (ids.take (elements.countP rules.takesId) progress.ids).2 := by
  induction run with
  | nil => exact ⟨(List.append_nil _).symm, rfl⟩
  | cons step run ih =>
    rcases step.ids_cases with ⟨none, -, ids, generated⟩ | ⟨id, one, -, -, taken, generated⟩
    · rw [List.countP_cons_of_neg (by simpa using none), ← ids, ← generated]
      exact ih
    · rw [List.countP_cons_of_pos one, IdSource.take_succ, taken]
      rw [generated, List.append_assoc] at ih
      exact ih

/-! ### Ids that were written -/

/-- The id that an element has now and did not have before. -/
def writtenId? (before after : Element) : Option String :=
  if before.id.isNone then after.id else none

/-- The ids that were written onto elements, in the order of the elements. -/
def writtenIds : List Element → List Element → List String
  | before :: rest, after :: restAfter => (writtenId? before after).toList ++ writtenIds rest restAfter
  | _, _ => []

theorem writtenId?_self (element : Element) : writtenId? element element = none := by
  unfold writtenId?
  cases element.id <;> rfl

theorem writtenIds_self (elements : List Element) : writtenIds elements elements = [] := by
  induction elements with
  | nil => rfl
  | cons element rest ih =>
    rw [writtenIds, writtenId?_self, ih]
    rfl

theorem BindRun.written (run : BindRun rules ids index elements progress elementsAfter final)
    (rest : List Element) :
    writtenIds (elements ++ rest) (elementsAfter ++ rest) =
      (ids.take (elements.countP rules.takesId) progress.ids).1 := by
  induction run with
  | nil => exact writtenIds_self rest
  | @cons index element after _ _ progress next final step run ih =>
    rw [List.cons_append, List.cons_append, writtenIds, ih]
    rcases step.ids_cases with ⟨none, rfl, ids, -⟩ | ⟨id, one, unknown, rfl, taken, -⟩
    · rw [List.countP_cons_of_neg (by simpa using none), ← ids, writtenId?_self]
      rfl
    · have written : writtenId? element { element with id := some id } = some id := by
        rw [writtenId?, unknown]
        rfl
      rw [List.countP_cons_of_pos one, IdSource.take_succ, taken, written]
      rfl

theorem BindRun.take_written (run : BindRun rules ids index elements progress elementsAfter final)
    (rest : List Element) :
    ids.take (writtenIds (elements ++ rest) (elementsAfter ++ rest)).length progress.ids =
      (writtenIds (elements ++ rest) (elementsAfter ++ rest), final.ids) := by
  rw [run.written rest, IdSource.length_take]
  exact Prod.ext rfl run.taken.2.symm

end DataBind
