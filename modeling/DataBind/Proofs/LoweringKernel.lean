import DataBind.Proofs.LoweredFields
import Mathlib.Data.List.Forall2

/-!
# What lowering keeps

Two specifications that declarations compile to lower to the same binding exactly if they agree on the
attributes and the last filter in each role of `value`, on the attributes and the first filter of every
attribute operand in order, and on the event types. Nothing else of a specification shows.
-/

namespace DataBind

/-! ### Parts that can be read back -/

/-- What is observed tells the names it was collapsed from. -/
theorem Observe.names_collapse (names : List String) :
    (Observe.collapse names).elim [] Observe.names = names := by
  rcases names with _ | ⟨name, _ | ⟨second, rest⟩⟩ <;> rfl

theorem Observe.collapse_injective : Function.Injective Observe.collapse := by
  intro names others same
  rw [← names_collapse names, ← names_collapse others, same]

theorem Observe.collapse_ne_none {names : List String} (nonempty : names ≠ []) :
    Observe.collapse names ≠ none := by
  intro nothing
  have listed := names_collapse names
  rw [nothing] at listed
  exact nonempty listed.symm

/-- Each role is filled by one kind of filter on one side. -/
theorem CallbackRole.ofFilter_inj {kind kind' : FilterKind} {target target' : FilterTarget} :
    ofFilter kind target = ofFilter kind' target' → kind = kind' ∧ target = target' := by
  cases kind <;> cases target <;> cases kind' <;> cases target' <;> decide

theorem Filter.callback_injective :
    Function.Injective fun filter : Filter => (⟨filter.role, filter.name⟩ : Callback) := by
  rintro ⟨name, kind, target⟩ ⟨name', kind', target'⟩ same
  obtain ⟨role, rfl⟩ := Callback.mk.inj same
  obtain ⟨rfl, rfl⟩ := CallbackRole.ofFilter_inj role
  rfl

theorem DataBound.lowerAttribute_inj {data other : DataBound} {name name' : String} :
    data.lowerAttribute name = other.lowerAttribute name' ↔
      name = name' ∧ data.attributes = other.attributes ∧ data.filters.head? = other.filters.head? := by
  rw [lowerAttribute, lowerAttribute, AttributeBinding.mk.injEq, Observe.collapse_injective.eq_iff,
    (Option.map_injective Filter.callback_injective).eq_iff]

/-! ### Entries that lower alike -/

/-- Equal attributes, and in each role the same last name or none. -/
inductive ValueAlike : Operand → Operand → Prop
  | dataBound {data other : DataBound} (attributes : data.attributes = other.attributes)
      (callbacks : ∀ role, lastInRole? role data.filters = lastInRole? role other.filters) :
      ValueAlike (.dataBound data) (.dataBound other)

/-- Under one name, equal attributes and the same first filter or none. -/
inductive AttributeAlike : String × Operand → String × Operand → Prop
  | dataBound {name : String} {data other : DataBound} (attributes : data.attributes = other.attributes)
      (first : data.filters.head? = other.filters.head?) :
      AttributeAlike (name, .dataBound data) (name, .dataBound other)

inductive EventsAlike : Operand → Operand → Prop
  | events (types : List String) : EventsAlike (.events types) (.events types)

/-- The entries of attributes of the page, in their order. -/
def Spec.attributeEntries (spec : Spec) : List (String × Operand) :=
  spec.entries.filter (·.1 ∈ ["disabled", "class", "readonly"])

theorem Spec.attributeEntries_eq (spec : Spec) :
    spec.attributeEntries = spec.entries.filter (·.1 ∈ attributeOperands) := rfl

/-- The specifications agree on all that lowering looks at. -/
structure LoweredAlike (spec spec' : Spec) : Prop where
  value : Option.Rel ValueAlike (spec.get? "value") (spec'.get? "value")
  attributes : List.Forall₂ AttributeAlike spec.attributeEntries spec'.attributeEntries
  events : Option.Rel EventsAlike (spec.get? "events") (spec'.get? "events")

variable {options options' : CompileOptions} {declaration declaration' : String} {spec spec' : Spec}

theorem value_cases (h : compile options declaration = .ok spec) :
    spec.get? "value" = none ∧ spec.valueData? = none ∨
      ∃ data, spec.get? "value" = some (.dataBound data) ∧ spec.valueData? = some data ∧
        data.attributes ≠ [] := by
  cases found : spec.get? "value" with
  | none => exact .inl ⟨rfl, by rw [Spec.valueData?, found]; rfl⟩
  | some operand =>
    obtain ⟨data, rfl, nonempty⟩ :=
      (operandForm_of_get? h found).exists_dataBound (by decide) (by decide)
    exact .inr ⟨data, rfl, by rw [Spec.valueData?, found]; rfl, nonempty⟩

theorem events_cases (h : compile options declaration = .ok spec) :
    spec.get? "events" = none ∧ spec.lower.types = none ∨
      ∃ types, spec.get? "events" = some (.events types) ∧ spec.lower.types = some types := by
  cases found : spec.get? "events" with
  | none => exact .inl ⟨rfl, by rw [lower_types h, found]; rfl⟩
  | some operand =>
    obtain ⟨types, rfl⟩ := (operandForm_of_get? h found).exists_events rfl
    exact .inr ⟨types, rfl, by rw [lower_types h, found]; rfl⟩

theorem value_alike_iff (h : compile options declaration = .ok spec)
    (h' : compile options' declaration' = .ok spec') :
    (spec.lower.observe = spec'.lower.observe ∧
        ∀ role, spec.lower.callback? role = spec'.lower.callback? role) ↔
      Option.Rel ValueAlike (spec.get? "value") (spec'.get? "value") := by
  have distinct : spec.names.Nodup := nodup_names_of_compile h
  have distinct' : spec'.names.Nodup := nodup_names_of_compile h'
  simp only [Spec.lower_observe distinct, Spec.lower_observe distinct', Spec.lower_callback? distinct,
    Spec.lower_callback? distinct']
  rcases value_cases h with ⟨found, value⟩ | ⟨data, found, value, nonempty⟩ <;>
    rcases value_cases h' with ⟨found', value'⟩ | ⟨data', found', value', nonempty'⟩ <;>
    rw [found, found', value, value']
  · exact iff_of_true ⟨rfl, fun _ => rfl⟩ .none
  -- A declaration names at least one attribute, so a `value` that stands alone shows.
  · refine iff_of_false (fun same => ?_) nofun
    exact Observe.collapse_ne_none nonempty' same.1.symm
  · refine iff_of_false (fun same => ?_) nofun
    exact Observe.collapse_ne_none nonempty same.1
  · constructor
    · rintro ⟨observe, callbacks⟩
      exact .some (.dataBound (Observe.collapse_injective observe) callbacks)
    · rintro (⟨⟨attributes, callbacks⟩⟩)
      exact ⟨congrArg Observe.collapse attributes, callbacks⟩

theorem events_alike_iff (h : compile options declaration = .ok spec)
    (h' : compile options' declaration' = .ok spec') :
    spec.lower.types = spec'.lower.types ↔
      Option.Rel EventsAlike (spec.get? "events") (spec'.get? "events") := by
  rcases events_cases h with ⟨found, types⟩ | ⟨listed, found, types⟩ <;>
    rcases events_cases h' with ⟨found', types'⟩ | ⟨listed', found', types'⟩ <;>
    rw [found, found', types, types']
  · exact iff_of_true rfl .none
  · exact iff_of_false nofun nofun
  · exact iff_of_false nofun nofun
  · constructor
    · intro same
      cases same
      exact .some (.events listed)
    · rintro (⟨⟨_⟩⟩)
      rfl

/-! ### Attribute bindings -/

/-- An entry of an attribute of the page that has data. -/
def AttributeEntry (entry : String × Operand) : Prop :=
  entry.1 ∈ attributeOperands ∧ ∃ data, entry.2 = .dataBound data

theorem attributeEntry_of_mem (h : compile options declaration = .ok spec) {entry : String × Operand}
    (member : entry ∈ spec.attributeEntries) : AttributeEntry entry := by
  obtain ⟨listed, bound⟩ := List.mem_filter.mp member
  have named : entry.1 ∈ attributeOperands := of_decide_eq_true bound
  obtain ⟨data, same, -⟩ := exists_dataBound_of_attributeOperand h listed named
  exact ⟨named, data, same⟩

theorem AttributeEntry.exists_binding {entry : String × Operand} (plain : AttributeEntry entry) :
    ∃ data, entry = (entry.1, .dataBound data) ∧
      attributeBinding? entry = some (data.lowerAttribute entry.1) := by
  obtain ⟨name, operand⟩ := entry
  obtain ⟨bound, data, rfl⟩ := plain
  exact ⟨data, rfl, if_pos bound⟩

theorem attributeAlike_iff {name name' : String} {data data' : DataBound} :
    AttributeAlike (name, .dataBound data) (name', .dataBound data') ↔
      data.lowerAttribute name = data'.lowerAttribute name' := by
  rw [DataBound.lowerAttribute_inj]
  constructor
  · rintro ⟨attributes, first⟩
    exact ⟨rfl, attributes, first⟩
  · rintro ⟨rfl, attributes, first⟩
    exact .dataBound attributes first

theorem lower_attributes_eq (spec : Spec) :
    spec.lower.attributes = spec.attributeEntries.filterMap attributeBinding? := by
  rw [(entriesLowered_lower spec).attributes, spec.attributeEntries_eq, List.filterMap_filter]
  refine List.filterMap_congr fun entry _ => ?_
  by_cases bound : entry.1 ∈ attributeOperands <;> simp [attributeBinding?, bound]

theorem filterMap_attributeBinding?_eq_iff {entries others : List (String × Operand)}
    (plain : ∀ entry ∈ entries, AttributeEntry entry) (plain' : ∀ entry ∈ others, AttributeEntry entry) :
    entries.filterMap attributeBinding? = others.filterMap attributeBinding? ↔
      List.Forall₂ AttributeAlike entries others := by
  induction entries generalizing others with
  | nil =>
    cases others with
    | nil => exact iff_of_true rfl .nil
    | cons other others =>
      obtain ⟨data', -, binding'⟩ := (plain' other List.mem_cons_self).exists_binding
      rw [List.filterMap_cons_some binding']
      exact iff_of_false nofun nofun
  | cons entry entries ih =>
    obtain ⟨first, later⟩ := List.forall_mem_cons.mp plain
    obtain ⟨data, same, binding⟩ := first.exists_binding
    rw [List.filterMap_cons_some binding]
    cases others with
    | nil => exact iff_of_false nofun nofun
    | cons other others =>
      obtain ⟨first', later'⟩ := List.forall_mem_cons.mp plain'
      obtain ⟨data', same', binding'⟩ := first'.exists_binding
      have head : AttributeAlike entry other ↔ data.lowerAttribute entry.1 = data'.lowerAttribute other.1 := by
        rw [same, same']
        exact attributeAlike_iff
      rw [List.filterMap_cons_some binding', List.forall₂_cons, List.cons.injEq, head, ih later later']

theorem attributes_alike_iff (h : compile options declaration = .ok spec)
    (h' : compile options' declaration' = .ok spec') :
    spec.lower.attributes = spec'.lower.attributes ↔
      List.Forall₂ AttributeAlike spec.attributeEntries spec'.attributeEntries := by
  rw [lower_attributes_eq, lower_attributes_eq]
  exact filterMap_attributeBinding?_eq_iff (fun _ => attributeEntry_of_mem h) fun _ => attributeEntry_of_mem h'

/-- Whatever they were compiled from and with whichever options, two specifications lower to the same binding
exactly if they agree on all that lowering looks at. -/
theorem lower_eq_iff (h : compile options declaration = .ok spec)
    (h' : compile options' declaration' = .ok spec') :
    spec.lower = spec'.lower ↔ LoweredAlike spec spec' := by
  constructor
  · intro same
    have value := value_alike_iff h h'
    have attributes := attributes_alike_iff h h'
    have events := events_alike_iff h h'
    rw [same] at value attributes events
    exact ⟨value.mp ⟨rfl, fun _ => rfl⟩, attributes.mp rfl, events.mp rfl⟩
  · intro alike
    obtain ⟨observe, callbacks⟩ := (value_alike_iff h h').mpr alike.value
    exact ElementBinding.ext_callback? observe callbacks ((attributes_alike_iff h h').mpr alike.attributes)
      ((events_alike_iff h h').mpr alike.events)

/-- With a legacy reading, qualifiers, an unknown operand, and filters that do not show. -/
def fullSpec : Spec :=
  ⟨[("model", .model ["x|f-"] (some ⟨none, ["x"], [⟨"f", .filter, .model⟩]⟩)),
    ("value", .dataBound ⟨some "m", ["a", "b"],
      [⟨"f", .formatter, .dom⟩, ⟨"g", .filter, .model⟩, ⟨"h", .formatter, .dom⟩]⟩),
    ("note", .dataBound ⟨none, ["z"], []⟩),
    ("class", .dataBound ⟨some "m", ["k"], [⟨"c", .filter, .dom⟩, ⟨"d", .formatter, .model⟩]⟩),
    ("events", .events ["e"])]⟩

def shortSpec : Spec :=
  ⟨[("events", .events ["e"]), ("class", .dataBound ⟨none, ["k"], [⟨"c", .filter, .dom⟩]⟩),
    ("value", .dataBound ⟨none, ["a", "b"], [⟨"h", .formatter, .dom⟩, ⟨"g", .filter, .model⟩]⟩)]⟩

/-- Differs from `shortSpec` in a name only. -/
def otherSpec : Spec :=
  ⟨[("events", .events ["e"]), ("class", .dataBound ⟨none, ["k"], [⟨"c", .filter, .dom⟩]⟩),
    ("value", .dataBound ⟨none, ["a", "b"], [⟨"f", .formatter, .dom⟩, ⟨"g", .filter, .model⟩]⟩)]⟩

/-- Differs from `shortSpec` in the attribute of the page that an entry is for. -/
def disabledSpec : Spec :=
  ⟨[("events", .events ["e"]), ("disabled", .dataBound ⟨none, ["k"], [⟨"c", .filter, .dom⟩]⟩),
    ("value", .dataBound ⟨none, ["a", "b"], [⟨"h", .formatter, .dom⟩, ⟨"g", .filter, .model⟩]⟩)]⟩

theorem lower_eq_iff_shortened :
    compile ⟨true⟩ "model:x|f-,value:m#a+b|+f|g-|+h,note:z,class:m#k|-c|d+,events:e" = .ok fullSpec ∧
      compile ⟨false⟩ "events:e,class:k|-c,value:a+b|+h|g-" = .ok shortSpec ∧
      compile ⟨false⟩ "events:e,class:k|-c,value:a+b|+f|g-" = .ok otherSpec ∧
      compile ⟨false⟩ "events:e,disabled:k|-c,value:a+b|+h|g-" = .ok disabledSpec ∧
      LoweredAlike fullSpec shortSpec ∧ ¬LoweredAlike fullSpec otherSpec ∧ ¬LoweredAlike fullSpec disabledSpec := by
  have full : compile ⟨true⟩ "model:x|f-,value:m#a+b|+f|g-|+h,note:z,class:m#k|-c|d+,events:e" =
      .ok fullSpec := by
    decide +kernel
  have short : compile ⟨false⟩ "events:e,class:k|-c,value:a+b|+h|g-" = .ok shortSpec := by
    decide +kernel
  have other : compile ⟨false⟩ "events:e,class:k|-c,value:a+b|+f|g-" = .ok otherSpec := by
    decide +kernel
  have disabled : compile ⟨false⟩ "events:e,disabled:k|-c,value:a+b|+h|g-" = .ok disabledSpec := by
    decide +kernel
  have alike : fullSpec.lower = shortSpec.lower := by decide +kernel
  have apart : fullSpec.lower ≠ otherSpec.lower := by decide +kernel
  have elsewhere : fullSpec.lower ≠ disabledSpec.lower := by decide +kernel
  exact ⟨full, short, other, disabled, (lower_eq_iff full short).mp alike, mt (lower_eq_iff full other).mpr apart,
    mt (lower_eq_iff full disabled).mpr elsewhere⟩

end DataBind
