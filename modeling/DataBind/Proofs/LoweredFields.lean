import DataBind.Binding.Lower
import DataBind.Proofs.CompiledForm
import DataBind.Proofs.StandingClauses

/-!
# The fields of a lowered binding

The observed attributes and the callbacks come from the operand `value` alone, each attribute binding from
one entry and the event types from the last list of events. In what a declaration compiles to, every entry
has the kind of payload that its name asks for.
-/

namespace DataBind

/-- The name of the last filter with the role. -/
def lastInRole? (role : CallbackRole) (filters : List Filter) : Option String :=
  (filters.reverse.find? fun filter => filter.role == role).map (·.name)

/-- What an entry says about the value of the element. -/
def valueData? (entry : String × Operand) : Option DataBound :=
  if entry.1 = "value" then entry.2.dataBound? else none

/-- What an entry says about an attribute of the page. -/
def attributeBinding? (entry : String × Operand) : Option AttributeBinding :=
  if entry.1 ∈ attributeOperands then entry.2.dataBound?.map (·.lowerAttribute entry.1) else none

def Operand.types? : Operand → Option (List String)
  | events types => some types
  | _ => none

/-! ### Callbacks -/

theorem lastInRole?_append (role : CallbackRole) (filters more : List Filter) :
    lastInRole? role (filters ++ more) = (lastInRole? role more).or (lastInRole? role filters) := by
  rw [lastInRole?, List.reverse_append, List.find?_append, Option.map_or]
  rfl

theorem lastInRole?_singleton (role : CallbackRole) (filter : Filter) :
    lastInRole? role [filter] = if filter.role = role then some filter.name else none := by
  by_cases same : filter.role = role <;> simp [lastInRole?, same]

namespace ElementBinding

theorem callback?_setCallback (binding : ElementBinding) (role other : CallbackRole) (name : String) :
    (binding.setCallback role name).callback? other =
      if role = other then some name else binding.callback? other := by
  cases role <;> cases other <;> rfl

/-- Setting a callback leaves all that is no callback. -/
theorem rest_setCallback (binding : ElementBinding) (role : CallbackRole) (name : String) :
    (binding.setCallback role name).observe = binding.observe ∧
      (binding.setCallback role name).attributes = binding.attributes ∧
      (binding.setCallback role name).types = binding.types := by
  cases role <;> exact ⟨rfl, rfl, rfl⟩

theorem withFilters_concat (binding : ElementBinding) (filters : List Filter) (filter : Filter) :
    binding.withFilters (filters ++ [filter]) =
      (binding.withFilters filters).setCallback filter.role filter.name :=
  List.foldl_append

theorem callback?_withFilters (binding : ElementBinding) (filters : List Filter) (role : CallbackRole) :
    (binding.withFilters filters).callback? role =
      (lastInRole? role filters).or (binding.callback? role) := by
  induction filters using List.reverseRecOn with
  | nil => rfl
  | append_singleton filters filter ih =>
    rw [withFilters_concat, callback?_setCallback, lastInRole?_append, lastInRole?_singleton, ih]
    split <;> rfl

theorem rest_withFilters (binding : ElementBinding) (filters : List Filter) :
    (binding.withFilters filters).observe = binding.observe ∧
      (binding.withFilters filters).attributes = binding.attributes ∧
      (binding.withFilters filters).types = binding.types := by
  induction filters using List.reverseRecOn with
  | nil => exact ⟨rfl, rfl, rfl⟩
  | append_singleton filters filter ih =>
    obtain ⟨observe, attributes, types⟩ := (binding.withFilters filters).rest_setCallback filter.role filter.name
    rw [withFilters_concat, observe, attributes, types]
    exact ih

/-- Bindings are equal if all that can be asked of them is. -/
theorem ext_callback? {binding other : ElementBinding} (observe : binding.observe = other.observe)
    (callbacks : ∀ role, binding.callback? role = other.callback? role)
    (attributes : binding.attributes = other.attributes) (types : binding.types = other.types) :
    binding = other := by
  have onGet : binding.onGet = other.onGet := callbacks .onGet
  have onSet : binding.onSet = other.onSet := callbacks .onSet
  have updateView : binding.updateView = other.updateView := callbacks .updateView
  have updateModel : binding.updateModel = other.updateModel := callbacks .updateModel
  cases binding
  cases other
  simp only at observe onGet onSet updateView updateModel attributes types
  subst observe onGet onSet updateView updateModel attributes types
  rfl

end ElementBinding

/-! ### Entry by entry -/

/-- An entry without data is about no attribute and not about the value. -/
theorem entry_without_data {operand : Operand} (other : operand.dataBound? = none) (name : String) :
    valueData? (name, operand) = none ∧ attributeBinding? (name, operand) = none := by
  simp [valueData?, attributeBinding?, other]

theorem value_not_mem_attributeOperands : "value" ∉ attributeOperands := by
  decide

/-- What one entry does to a binding. -/
structure EntryLowered (entry : String × Operand) (binding next : ElementBinding) : Prop where
  observe : next.observe =
    (valueData? entry).elim binding.observe fun data => Observe.collapse data.attributes
  callbacks : ∀ role, next.callback? role =
    ((valueData? entry).bind fun data => lastInRole? role data.filters).or (binding.callback? role)
  attributes : next.attributes = binding.attributes ++ (attributeBinding? entry).toList
  types : next.types = entry.2.types?.or binding.types

theorem entryLowered_lower (name : String) (operand : Operand) (binding : ElementBinding) :
    EntryLowered (name, operand) binding (operand.lower name binding) := by
  cases operand with
  | events types =>
    obtain ⟨value, bound⟩ := entry_without_data (rfl : (Operand.events types).dataBound? = none) name
    constructor <;> simp [value, bound, Operand.lower, Operand.types?, ElementBinding.callback?]
  | model names legacy =>
    obtain ⟨value, bound⟩ := entry_without_data (rfl : (Operand.model names legacy).dataBound? = none) name
    constructor <;> simp [value, bound, Operand.lower, Operand.types?]
  | dataBound data =>
    rw [Operand.lower]
    by_cases value : name = "value"
    · subst value
      obtain ⟨observe, attributes, types⟩ :=
        { binding with observe := Observe.collapse data.attributes }.rest_withFilters data.filters
      have bound : attributeBinding? ("value", .dataBound data) = none :=
        if_neg value_not_mem_attributeOperands
      rw [if_pos rfl, DataBound.lowerValue]
      refine ⟨observe, fun role => ?_, ?_, types⟩
      · rw [ElementBinding.callback?_withFilters]
        rfl
      · rw [attributes, bound]
        exact (List.append_nil _).symm
    · have value? : valueData? (name, .dataBound data) = none := if_neg value
      rw [if_neg value]
      by_cases bound : name ∈ attributeOperands
      · have bound? : attributeBinding? (name, .dataBound data) = some (data.lowerAttribute name) :=
          if_pos bound
        rw [if_pos bound]
        constructor <;> simp [value?, bound?, Operand.types?, ElementBinding.callback?]
      · have bound? : attributeBinding? (name, .dataBound data) = none := if_neg bound
        rw [if_neg bound]
        constructor <;> simp [value?, bound?, Operand.types?]

/-- What a list of entries gives, with those of one kind in their order. -/
structure EntriesLowered (entries : List (String × Operand)) (binding : ElementBinding) : Prop where
  observe : binding.observe =
    (entries.filterMap valueData?).getLast?.bind fun data => Observe.collapse data.attributes
  callbacks : ∀ role, binding.callback? role =
    lastInRole? role ((entries.filterMap valueData?).flatMap (·.filters))
  attributes : binding.attributes = entries.filterMap attributeBinding?
  types : binding.types = (entries.filterMap fun entry => entry.2.types?).getLast?

theorem EntriesLowered.concat {entries : List (String × Operand)} {entry : String × Operand}
    {binding next : ElementBinding} (before : EntriesLowered entries binding)
    (step : EntryLowered entry binding next) : EntriesLowered (entries ++ [entry]) next := by
  refine ⟨?_, fun role => ?_, ?_, ?_⟩
  · rw [step.observe, List.filterMap_append, before.observe]
    cases value : valueData? entry <;> simp [value]
  · rw [step.callbacks, List.filterMap_append, List.flatMap_append, lastInRole?_append, before.callbacks]
    cases value : valueData? entry <;> simp [value, lastInRole?]
  · rw [step.attributes, List.filterMap_append, before.attributes]
    cases bound : attributeBinding? entry <;> simp [bound]
  · rw [step.types, List.filterMap_append, before.types]
    cases types : entry.2.types? <;> simp [types]

theorem entriesLowered_lower (spec : Spec) : EntriesLowered spec.entries spec.lower := by
  obtain ⟨entries⟩ := spec
  induction entries using List.reverseRecOn with
  | nil => exact ⟨rfl, fun role => by cases role <;> rfl, rfl, rfl⟩
  | append_singleton entries entry ih =>
    have last : Spec.lower ⟨entries ++ [entry]⟩ = entry.2.lower entry.1 (Spec.lower ⟨entries⟩) :=
      List.foldl_append
    rw [last]
    exact ih.concat (entryLowered_lower entry.1 entry.2 _)

/-! ### Distinct names -/

namespace Spec

theorem mem_of_get? {spec : Spec} {name : String} {operand : Operand}
    (found : spec.get? name = some operand) : (name, operand) ∈ spec.entries := by
  obtain ⟨entry, here, rfl⟩ := Option.map_eq_some_iff.mp found
  have same : entry.1 = name := by simpa using List.find?_some here
  subst same
  exact List.mem_of_find?_eq_some here

/-- Where only one name matters there is at most one entry to look at. -/
theorem filterMap_entries {β : Type} {spec : Spec} (distinct : spec.names.Nodup)
    {f : String × Operand → Option β} {name : String}
    (only : ∀ entry ∈ spec.entries, f entry ≠ none → entry.1 = name) :
    spec.entries.filterMap f = ((spec.get? name).bind fun operand => f (name, operand)).toList := by
  obtain ⟨entries⟩ := spec
  induction entries with
  | nil => rfl
  | cons entry entries ih =>
    obtain ⟨known, operand⟩ := entry
    obtain ⟨once, distinct⟩ := List.nodup_cons.mp distinct
    obtain ⟨first, later⟩ := List.forall_mem_cons.mp only
    have rest : entries.filterMap f = _ := ih distinct later
    rw [get?_cons, List.filterMap_cons, rest]
    by_cases same : name = known
    · subst same
      rw [get?_eq_none once, if_pos rfl]
      cases spoken : f (name, operand) <;> simp [spoken]
    · have silent : f (known, operand) = none := by
        by_contra spoken
        exact same (first spoken).symm
      rw [if_neg same, silent]

/-- What the operand `value` says. -/
def valueData? (spec : Spec) : Option DataBound :=
  (spec.get? "value").bind Operand.dataBound?

theorem filterMap_valueData? {spec : Spec} (distinct : spec.names.Nodup) :
    spec.entries.filterMap DataBind.valueData? = spec.valueData?.toList := by
  refine filterMap_entries distinct fun entry _ spoken => ?_
  by_contra other
  exact spoken (if_neg other)

theorem lower_observe {spec : Spec} (distinct : spec.names.Nodup) :
    spec.lower.observe = spec.valueData?.bind fun data => Observe.collapse data.attributes := by
  rw [(entriesLowered_lower spec).observe, filterMap_valueData? distinct]
  cases spec.valueData? <;> rfl

theorem lower_callback? {spec : Spec} (distinct : spec.names.Nodup) (role : CallbackRole) :
    spec.lower.callback? role = spec.valueData?.bind fun data => lastInRole? role data.filters := by
  rw [(entriesLowered_lower spec).callbacks, filterMap_valueData? distinct]
  cases spec.valueData? <;> simp [lastInRole?]

end Spec

/-! ### What declarations compile to -/

section Compiled

variable {options : CompileOptions} {declaration name : String} {operand : Operand} {spec : Spec}

theorem operandForm_of_mem (h : compile options declaration = .ok spec) {entry : String × Operand}
    (member : entry ∈ spec.entries) : OperandForm options entry.1 entry.2 :=
  (plainEntry_iff.mp (plainEntry_of_mem h member)).2.2

theorem operandForm_of_get? (h : compile options declaration = .ok spec)
    (found : spec.get? name = some operand) : OperandForm options name operand :=
  operandForm_of_mem h (Spec.mem_of_get? found)

theorem OperandForm.exists_dataBound (form : OperandForm options name operand) (notEvents : name ≠ "events")
    (notModel : name ≠ "model") : ∃ data, operand = .dataBound data ∧ data.attributes ≠ [] := by
  cases form with
  | events => exact absurd rfl notEvents
  | model => exact absurd rfl notModel
  | legacy => exact absurd rfl notModel
  | dataBound _ _ readable => exact ⟨_, rfl, readable.nonempty⟩

theorem OperandForm.exists_events (form : OperandForm options name operand) (events : name = "events") :
    ∃ types, operand = .events types := by
  cases form with
  | events => exact ⟨_, rfl⟩
  | model => exact absurd events (by decide)
  | legacy => exact absurd events (by decide)
  | dataBound notEvents => exact absurd events notEvents

theorem OperandForm.name_of_types? (form : OperandForm options name operand)
    (spoken : operand.types? ≠ none) : name = "events" := by
  cases form with
  | events => rfl
  | model => exact absurd rfl spoken
  | legacy => exact absurd rfl spoken
  | dataBound => exact absurd rfl spoken

theorem exists_dataBound_of_attributeOperand (h : compile options declaration = .ok spec)
    {entry : String × Operand} (member : entry ∈ spec.entries) (bound : entry.1 ∈ attributeOperands) :
    ∃ data, entry.2 = .dataBound data ∧ data.attributes ≠ [] := by
  apply (operandForm_of_mem h member).exists_dataBound
  · intro same
    exact absurd (same ▸ bound) (by decide)
  · intro same
    exact absurd (same ▸ bound) (by decide)

theorem lower_types (h : compile options declaration = .ok spec) :
    spec.lower.types = (spec.get? "events").bind Operand.types? := by
  have only : ∀ entry ∈ spec.entries, entry.2.types? ≠ none → entry.1 = "events" :=
    fun entry member => (operandForm_of_mem h member).name_of_types?
  rw [(entriesLowered_lower spec).types, Spec.filterMap_entries (nodup_names_of_compile h) only]
  cases (spec.get? "events").bind Operand.types? <;> rfl

theorem lower_attributes_names (h : compile options declaration = .ok spec) :
    spec.lower.attributes.map (·.name) = spec.names.filter (· ∈ attributeOperands) := by
  rw [(entriesLowered_lower spec).attributes, Spec.names, List.map_filterMap, List.filter_map,
    ← List.filterMap_eq_map, List.filterMap_filter]
  refine List.filterMap_congr fun entry member => ?_
  by_cases bound : entry.1 ∈ attributeOperands
  · obtain ⟨data, same, -⟩ := exists_dataBound_of_attributeOperand h member bound
    simp [attributeBinding?, bound, same, Operand.dataBound?, DataBound.lowerAttribute]
  · simp [attributeBinding?, bound]

end Compiled

end DataBind
