import DataBind.Proofs.MergedBindings
import DataBind.Proofs.TakenIds

/-!
# Clashes of ids

A run takes one id for each bound element that has none, and the id source never sees the ids that are
given. With distinct given ids and a numbered source the only clashes are of a generated id with a given
one: each of them costs one entry, and without any the bindings hold every bound element's own.
-/

namespace DataBind

variable {σ : Type} {rules : BindRules} {ids : IdSource σ} {index : Nat}
  {elements elementsAfter : List Element} {progress final : Progress σ}

def BindRules.boundId? (rules : BindRules) (element : Element) : Option String :=
  (rules.spec? element).bind fun _ => element.id

/-- The ids of the bound elements that have one. -/
def BindRules.boundIds (rules : BindRules) (elements : List Element) : List String :=
  elements.filterMap rules.boundId?

theorem BindRun.boundIds (run : BindRun rules ids index elements progress elementsAfter final) :
    (rules.boundIds elementsAfter).Perm
      (rules.boundIds elements ++ (ids.take (elements.countP rules.takesId) progress.ids).1) := by
  induction run with
  | nil => exact .refl _
  | @cons index element after rest restAfter progress next final step run ih =>
    rcases step.ids_cases with ⟨none, same, ids, -⟩ | ⟨id, one, unknown, rfl, taken, -⟩
    · rw [List.countP_cons_of_neg (by simpa using none), ← ids, same]
      rw [BindRules.boundIds, BindRules.boundIds, List.filterMap_cons, List.filterMap_cons]
      cases rules.boundId? element with
      | none => exact ih
      | some id => exact ih.cons id
    · have unbound : rules.boundId? element = none := by
        simp [BindRules.boundId?, unknown]
      have bound : rules.boundId? { element with id := some id } = some id := by
        obtain ⟨spec, compiled, -⟩ := BindRules.takesId_iff.mp one
        exact Option.bind_eq_some_iff.mpr ⟨spec, compiled, rfl⟩
      rw [List.countP_cons_of_pos one, IdSource.take_succ, taken, BindRules.boundIds,
        BindRules.boundIds, List.filterMap_cons_some bound, List.filterMap_cons_none unbound]
      -- The id taken here comes after the given ids and before those taken later.
      exact (ih.cons id).trans List.perm_middle.symm

theorem length_boundIds (rules : BindRules) (elements : List Element) :
    (rules.boundIds elements).length + elements.countP rules.takesId = elements.countP rules.binds := by
  induction elements with
  | nil => rfl
  | cons element rest ih =>
    unfold BindRules.boundIds at ih ⊢
    rw [List.filterMap_cons, List.countP_cons, List.countP_cons, ← ih]
    cases spec : rules.spec? element with
    | none => simp [BindRules.boundId?, BindRules.takesId, BindRules.binds, spec]
    | some _ =>
      cases known : element.id with
      | none => simp [BindRules.boundId?, BindRules.takesId, BindRules.binds, spec, known]; omega
      | some id => simp [BindRules.boundId?, BindRules.takesId, BindRules.binds, spec, known]; omega

theorem boundIds_sublist (rules : BindRules) (elements : List Element) :
    (rules.boundIds elements).Sublist (elements.filterMap (·.id)) := by
  induction elements with
  | nil => exact .slnil
  | cons element rest ih =>
    rw [BindRules.boundIds, List.filterMap_cons, List.filterMap_cons, BindRules.boundId?]
    cases rules.spec? element with
    | none =>
      cases element.id with
      | none => exact ih
      | some id => exact ih.cons id
    | some spec =>
      cases element.id with
      | none => exact ih
      | some id => exact ih.cons_cons id

/-! ### Keys -/

theorem selectorFor_injective : Function.Injective selectorFor := fun _ _ same =>
  (String.append_right_inj "#").mp same

theorem keys_bindings (rules : BindRules) (elements : List Element) :
    (elements.filterMap rules.binding?).map (·.1) = (rules.boundIds elements).map selectorFor := by
  rw [BindRules.boundIds, List.map_filterMap, List.map_filterMap]
  refine List.filterMap_congr fun element _ => ?_
  cases spec : rules.spec? element with
  | none => simp [BindRules.binding?, BindRules.boundId?, spec]
  | some _ =>
    simp only [BindRules.binding?, BindRules.boundId?, spec, Option.bind_some, Option.map_map]
    rfl

theorem size_bindings (rules : BindRules) (elements : List Element) :
    (KeyMap.empty.insertAll (elements.filterMap rules.binding?)).size =
      (rules.boundIds elements).toFinset.card := by
  have image : ((rules.boundIds elements).map selectorFor).toFinset =
      (rules.boundIds elements).toFinset.image selectorFor := by
    ext key
    simp
  rw [KeyMap.size_insertAll_empty, keys_bindings, image,
    Finset.card_image_of_injective _ selectorFor_injective]

theorem nodup_append_iff {given taken : List String} (distinct : given.Nodup) (fresh : taken.Nodup) :
    (given ++ taken).Nodup ↔ ∀ id ∈ taken, id ∉ given := by
  rw [List.nodup_append]
  constructor
  · rintro ⟨-, -, apart⟩ id member clash
    exact apart id clash id member rfl
  · intro apart
    refine ⟨distinct, fresh, fun id member other taken same => ?_⟩
    exact apart other taken (same ▸ member)

theorem card_toFinset_append {given taken : List String} (distinct : given.Nodup)
    (fresh : taken.Nodup) :
    (given ++ taken).toFinset.card + (taken.filter (· ∈ given)).length =
      given.length + taken.length := by
  have both : (taken.filter (· ∈ given)).length = (given.toFinset ∩ taken.toFinset).card := by
    rw [← List.toFinset_card_of_nodup (fresh.filter _), List.toFinset_filter, Finset.inter_comm,
      ← Finset.filter_mem_eq_inter]
    simp
  rw [both, List.toFinset_append, Finset.card_union_add_card_inter,
    List.toFinset_card_of_nodup distinct, List.toFinset_card_of_nodup fresh]

/-! ### Reports -/

/-- What a run with a numbered source gives for a view with distinct ids. Nobody else draws from the counter of the
source during the run. -/
structure NumberedRun (options : Options) (stem : String) (count : UInt64) (view final : View)
    (report : Report) : Prop where
  generated : report.generatedIds =
    (List.range (view.elements.countP options.rules.takesId)).map (IdSource.numberedId stem count)
  fresh : report.generatedIds.Nodup
  /-- Every clash costs one entry. -/
  entries : report.bindings.size +
      (report.generatedIds.filter (· ∈ options.rules.boundIds view.elements)).length =
    view.elements.countP options.rules.binds
  distinct : (options.rules.boundIds final.elements).Nodup ↔
    ∀ id ∈ report.generatedIds, id ∉ options.rules.boundIds view.elements
  /-- Of the bound elements with one id, the last keeps its binding. -/
  last : ∀ before element after, final.elements = before ++ element :: after →
    ∀ id spec, Bound options element id spec → (∀ later ∈ after, ∀ spec', ¬Bound options later id spec') →
      report.bindings.get? (selectorFor id) = some spec.lower
  own : (∀ id ∈ report.generatedIds, id ∉ options.rules.boundIds view.elements) →
    ∀ element ∈ final.elements, ∀ id spec, Bound options element id spec →
      report.bindings.get? (selectorFor id) = some spec.lower

theorem Bound.boundId? {options : Options} {element : Element} {id : String} {spec : Spec}
    (bound : Bound options element id spec) : options.rules.boundId? element = some id := by
  rw [BindRules.boundId?, bound.compiled, Option.bind_some, bound.named]

theorem get?_of_last {options : Options} {elements before after : List Element} {element : Element}
    (split : elements = before ++ element :: after) {id : String} {spec : Spec}
    (bound : Bound options element id spec) (alone : ∀ later ∈ after, ∀ spec', ¬Bound options later id spec') :
    (KeyMap.empty.insertAll (elements.filterMap options.rules.binding?)).get? (selectorFor id) =
      some spec.lower := by
  refine get?_bindings.mpr ⟨before, element, after, id, spec, split, bound, rfl, rfl, ?_⟩
  -- A later element under the same key would have the same id.
  intro later member id' spec' bound' same
  obtain rfl := selectorFor_injective same
  exact alone later member spec' bound'

theorem get?_of_distinct {options : Options} {elements : List Element}
    (distinct : (options.rules.boundIds elements).Nodup) {element : Element}
    (member : element ∈ elements) {id : String} {spec : Spec}
    (bound : Bound options element id spec) :
    (KeyMap.empty.insertAll (elements.filterMap options.rules.binding?)).get? (selectorFor id) =
      some spec.lower := by
  obtain ⟨before, after, rfl⟩ := List.append_of_mem member
  refine get?_of_last rfl bound fun later member spec' bound' => ?_
  rw [BindRules.boundIds, List.filterMap_append, List.filterMap_cons_some bound.boundId?] at distinct
  have once := (List.nodup_cons.mp (List.nodup_append.mp distinct).2.1).1
  exact once (List.mem_filterMap.mpr ⟨later, member, bound'.boundId?⟩)

theorem generatedIds_of_report {options : Options} {view : View} {state : σ}
    {log : List Registration} {report : Report}
    (h : (bindView options ids view state log).result = .ok report) :
    report.generatedIds = (ids.take (view.elements.countP options.rules.takesId) state).1 := by
  obtain ⟨final, run, -, taken, -⟩ := bindView_eq_ok h
  rw [taken, run.taken.1]
  rfl

theorem boundIds_of_report {options : Options} {view : View} {state : σ} {log : List Registration}
    {report : Report} (h : (bindView options ids view state log).result = .ok report) :
    (options.rules.boundIds (bindView options ids view state log).view.elements).Perm
      (options.rules.boundIds view.elements ++ report.generatedIds) := by
  obtain ⟨final, run, -⟩ := bindView_eq_ok h
  rw [generatedIds_of_report h]
  exact run.boundIds

/-- A run with a numbered source loses a binding exactly where a generated id is one that was given. -/
theorem bindView_numbered {options : Options} {stem : String} {view : View} {count : UInt64}
    {log : List Registration} {report : Report} (given : (view.elements.filterMap (·.id)).Nodup)
    (h : (bindView options (.numbered stem) view count log).result = .ok report)
    (few : report.generatedIds.length < UInt64.size) :
    NumberedRun options stem count view (bindView options (.numbered stem) view count log).view
      report := by
  have generated : report.generatedIds = (List.range (view.elements.countP options.rules.takesId)).map
      (IdSource.numberedId stem count) := by
    rw [generatedIds_of_report h, IdSource.take_numbered]
  have fresh : report.generatedIds.Nodup := by
    rw [generated] at few ⊢
    rw [List.length_map, List.length_range] at few
    exact IdSource.nodup_numberedId stem count few.le
  have known : (options.rules.boundIds view.elements).Nodup :=
    given.sublist (boundIds_sublist options.rules view.elements)
  have perm := boundIds_of_report h
  have distinct := perm.nodup_iff.trans (nodup_append_iff known fresh)
  have entries : report.bindings.size +
      (report.generatedIds.filter (· ∈ options.rules.boundIds view.elements)).length =
        view.elements.countP options.rules.binds := by
    rw [bindings_of_report h, size_bindings, List.toFinset_eq_of_perm _ _ perm,
      card_toFinset_append known fresh, ← length_boundIds, generated, List.length_map,
      List.length_range]
  refine ⟨generated, fresh, entries, distinct, ?_, fun apart element member id spec bound => ?_⟩
  · intro before element after split id spec bound alone
    rw [bindings_of_report h]
    exact get?_of_last split bound alone
  · rw [bindings_of_report h]
    exact get?_of_distinct (distinct.mpr apart) member bound

/-- A given id between two generated ones, and one on an element that is not bound. -/
def mixedView : View where
  model := some "person"
  elements := [
    { attributes := KeyMap.ofList [("data-bind", "value:a")] },
    { id := some "e3", attributes := KeyMap.ofList [("data-bind", "value:b")] },
    { id := some "e1" },
    { attributes := KeyMap.ofList [("data-bind", "value:c")] }]

def mixedReport : Report where
  model := "person"
  bindings := KeyMap.ofList [("#e1", { observe := some (.one "a") }),
    ("#e2", { observe := some (.one "c") }), ("#e3", { observe := some (.one "b") })]
  generatedIds := ["e1", "e2"]
  skipped := []

theorem bindView_numbered_mixed :
    (bindView {} (.numbered "e") mixedView IdSource.firstNumber []).result = .ok mixedReport ∧
      (∀ id ∈ mixedReport.generatedIds, id ∉ (Options.rules {}).boundIds mixedView.elements) ∧
      NumberedRun {} "e" IdSource.firstNumber mixedView
        (bindView {} (.numbered "e") mixedView IdSource.firstNumber []).view mixedReport := by
  have reported :
      (bindView {} (.numbered "e") mixedView IdSource.firstNumber []).result = .ok mixedReport := by
    decide +kernel
  exact ⟨reported, by decide +kernel, bindView_numbered (by decide) reported (by decide)⟩

/-- The second element has no id and gets the one that the first was given in the source's own form. -/
def clashingView : View where
  model := some "person"
  elements := [
    { id := some "stickit_1", attributes := KeyMap.ofList [("data-bind", "value:a")] },
    { attributes := KeyMap.ofList [("data-bind", "value:b")] }]

def clashingReport : Report where
  model := "person"
  bindings := KeyMap.ofList [("#stickit_1", { observe := some (.one "b") })]
  generatedIds := ["stickit_1"]
  skipped := []

/-- The given ids are distinct, both elements are bound, and one binding is lost. -/
theorem numbered_ids_clash :
    (clashingView.elements.filterMap (·.id)).Nodup ∧
      clashingReport.generatedIds.length < UInt64.size ∧
      (bindView {} (.numbered "stickit_") clashingView IdSource.firstNumber []).result =
        .ok clashingReport ∧
      clashingView.elements.countP (Options.rules {}).binds = 2 ∧
      clashingReport.bindings.size = 1 ∧
      ((bindView {} (.numbered "stickit_") clashingView
        IdSource.firstNumber []).view.elements.map (·.id)) = [some "stickit_1", some "stickit_1"] := by
  decide +kernel

end DataBind
