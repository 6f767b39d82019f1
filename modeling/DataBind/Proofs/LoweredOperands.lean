import DataBind.Proofs.LoweringKernel

/-!
# What each operand lowers to

`LoweredOperands` tells a binding from the operands of a specification, whatever kind of operand stands under
which name. Lowering gives that binding for every specification that insertions make, so also for what
declarations compile to.
-/

namespace DataBind

/-- A single name stands alone, several stay a list. -/
inductive OneOrMany : List String → Observe → Prop
  | one (name : String) : OneOrMany [name] (.one name)
  | many {names : List String} (several : 2 ≤ names.length) : OneOrMany names (.many names)

/-- Of the filters with the role the last one has the name. -/
def LastInRole (filters : List Filter) (role : CallbackRole) (name : String) : Prop :=
  ∃ before filter after, filters = before ++ filter :: after ∧ filter.role = role ∧ filter.name = name ∧
    ∀ later ∈ after, later.role ≠ role

/-- The callback of an attribute of the page is that of the first filter. -/
def FirstCallback (filters : List Filter) (callback : Callback) : Prop :=
  ∃ filter rest, filters = filter :: rest ∧ callback.role = filter.role ∧ callback.name = filter.name

/-- What an entry with data gives to the attribute of the page that it names. -/
inductive AttributeLowered : String × Operand → AttributeBinding → Prop
  | dataBound {data : DataBound} {slot : AttributeBinding}
      (observe : ∀ observe, slot.observe = some observe ↔ OneOrMany data.attributes observe)
      (callback : ∀ callback, slot.callback = some callback ↔ FirstCallback data.filters callback) :
      AttributeLowered (slot.name, .dataBound data) slot

/-- An entry with data for an attribute of the page. -/
def isBoundAttribute (entry : String × Operand) : Bool :=
  entry.1 ∈ ["disabled", "class", "readonly"] && entry.2.dataBound?.isSome

def Spec.boundAttributes (spec : Spec) : List (String × Operand) :=
  spec.entries.filter isBoundAttribute

/-- The entry names the event types, and no later entry has any. -/
def LastEvents (entries : List (String × Operand)) (types : List String) : Prop :=
  ∃ before name after, entries = before ++ (name, .events types) :: after ∧
    ∀ later ∈ after, ∀ others, later.2 ≠ .events others

/-- An entry that is no event list and has no data, or has it under a name that lowering does not know. -/
inductive Unread : String × Operand → Prop
  | model (name : String) (names : List String) (legacy : Option DataBound) : Unread (name, .model names legacy)
  | dataBound {name : String} (other : name ∉ ["value", "disabled", "class", "readonly"]) (data : DataBound) :
      Unread (name, .dataBound data)

structure LoweredOperands (spec : Spec) (binding : ElementBinding) : Prop where
  observe : ∀ observe, binding.observe = some observe ↔
    ∃ data, spec.get? "value" = some (.dataBound data) ∧ OneOrMany data.attributes observe
  callbacks : ∀ role name, binding.callback? role = some name ↔
    ∃ data, spec.get? "value" = some (.dataBound data) ∧ LastInRole data.filters role name
  attributes : List.Forall₂ AttributeLowered spec.boundAttributes binding.attributes
  types : ∀ types, binding.types = some types ↔ LastEvents spec.entries types
  /-- Without such an entry lowering gives the same. -/
  unread : ∀ before entry after, spec.entries = before ++ entry :: after → Unread entry →
    Spec.lower ⟨before ++ after⟩ = binding

/-! ### Observed attributes and callbacks -/

theorem Observe.collapse_eq_some_iff {names : List String} {observe : Observe} :
    collapse names = some observe ↔ OneOrMany names observe := by
  constructor
  · intro collapsed
    rcases names with _ | ⟨name, _ | ⟨second, rest⟩⟩
    · cases collapsed
    · cases collapsed
      exact .one name
    · cases collapsed
      exact .many (by simp)
  · rintro (name | several)
    · rfl
    · rcases names with _ | ⟨name, _ | ⟨second, rest⟩⟩
      · simp at several
      · simp at several
      · rfl

theorem lastInRole?_eq_some {filters : List Filter} {role : CallbackRole} {name : String} :
    lastInRole? role filters = some name ↔ LastInRole filters role name := by
  rw [lastInRole?, Option.map_eq_some_iff]
  constructor
  · rintro ⟨filter, found, rfl⟩
    obtain ⟨before, after, split, here, later⟩ := find?_reverse_eq_some.mp found
    refine ⟨before, filter, after, split, eq_of_beq here, rfl, fun other member same => ?_⟩
    have passed := later other member
    rw [same, beq_self_eq_true] at passed
    cases passed
  · rintro ⟨before, filter, after, split, rfl, rfl, later⟩
    have passed : ∀ other ∈ after, (other.role == filter.role) = false :=
      fun other member => beq_false_of_ne (later other member)
    exact ⟨filter, find?_reverse_eq_some.mpr ⟨before, after, split, beq_self_eq_true _, passed⟩, rfl⟩

theorem Spec.valueData?_eq_some {spec : Spec} {data : DataBound} :
    spec.valueData? = some data ↔ spec.get? "value" = some (.dataBound data) := by
  rw [valueData?, Option.bind_eq_some_iff]
  constructor
  · rintro ⟨operand, found, has⟩
    cases operand with
    | dataBound other =>
      cases has
      exact found
    | events types => cases has
    | model names legacy => cases has
  · intro found
    exact ⟨.dataBound data, found, rfl⟩

/-! ### Attributes of the page -/

theorem attributeLowered_lowerAttribute (name : String) (data : DataBound) :
    AttributeLowered (name, .dataBound data) (data.lowerAttribute name) := by
  refine @AttributeLowered.dataBound data (data.lowerAttribute name) (fun _ => Observe.collapse_eq_some_iff) ?_
  rintro ⟨role, called⟩
  unfold DataBound.lowerAttribute
  cases data.filters with
  | nil => simp [FirstCallback]
  | cons filter rest => simp [FirstCallback, eq_comm]

theorem isBoundAttribute_of_not_mem {name : String} (other : name ∉ ["disabled", "class", "readonly"])
    (operand : Operand) : isBoundAttribute (name, operand) = false := by
  rw [isBoundAttribute, decide_eq_false other, Bool.false_and]

theorem isBoundAttribute_without_data {operand : Operand} (other : operand.dataBound? = none) (name : String) :
    isBoundAttribute (name, operand) = false := by
  rw [isBoundAttribute, other, Option.isSome_none, Bool.and_false]

/-- An entry gives an attribute binding exactly if it has data under the name of an attribute. -/
theorem attributeBinding?_cases (entry : String × Operand) :
    isBoundAttribute entry = false ∧ attributeBinding? entry = none ∨
      isBoundAttribute entry = true ∧ ∃ slot, attributeBinding? entry = some slot ∧ AttributeLowered entry slot := by
  obtain ⟨name, operand⟩ := entry
  by_cases bound : name ∈ ["disabled", "class", "readonly"]
  · cases operand with
    | dataBound data =>
      exact .inr ⟨by rw [isBoundAttribute, decide_eq_true bound]; rfl, data.lowerAttribute name, if_pos bound,
        attributeLowered_lowerAttribute name data⟩
    | events types => exact .inl ⟨isBoundAttribute_without_data rfl name, (entry_without_data rfl name).2⟩
    | model names legacy => exact .inl ⟨isBoundAttribute_without_data rfl name, (entry_without_data rfl name).2⟩
  · exact .inl ⟨isBoundAttribute_of_not_mem bound operand, if_neg bound⟩

theorem forall₂_attributeBinding? (entries : List (String × Operand)) :
    List.Forall₂ AttributeLowered (entries.filter isBoundAttribute) (entries.filterMap attributeBinding?) := by
  induction entries with
  | nil => exact .nil
  | cons entry entries ih =>
    rcases attributeBinding?_cases entry with ⟨other, none⟩ | ⟨bound, slot, some, lowered⟩
    · rw [List.filter_cons_of_neg (by simp [other]), List.filterMap_cons_none none]
      exact ih
    · rw [List.filter_cons_of_pos bound, List.filterMap_cons_some some]
      exact .cons lowered ih

/-! ### Events -/

theorem Operand.types?_eq_some {operand : Operand} {types : List String} :
    operand.types? = some types ↔ operand = .events types := by
  cases operand <;> simp [types?]

theorem getLast?_types?_eq_some {entries : List (String × Operand)} {types : List String} :
    (entries.filterMap fun entry => entry.2.types?).getLast? = some types ↔ LastEvents entries types := by
  rw [List.getLast?_filterMap, List.findSome?_eq_some_iff]
  constructor
  · rintro ⟨later, ⟨name, operand⟩, earlier, split, here, none⟩
    obtain rfl := Operand.types?_eq_some.mp here
    refine ⟨earlier.reverse, name, later.reverse, ?_, fun entry member others same => ?_⟩
    · rw [← List.reverse_reverse entries, split]
      simp
    · have silent := none entry (List.mem_reverse.mp member)
      rw [Operand.types?_eq_some.mpr same] at silent
      cases silent
  · rintro ⟨before, name, after, rfl, last⟩
    refine ⟨after.reverse, (name, .events types), before.reverse, by simp, rfl, fun entry member => ?_⟩
    have other := last entry (List.mem_reverse.mp member)
    rw [Option.eq_none_iff_forall_ne_some]
    exact fun others listed => other others (Operand.types?_eq_some.mp listed)

/-! ### Entries without an effect -/

theorem lower_of_unread {name : String} {operand : Operand} (unread : Unread (name, operand))
    (binding : ElementBinding) : operand.lower name binding = binding := by
  cases unread with
  | model => rfl
  | dataBound other data =>
    have notValue : name ≠ "value" := fun same => other (by simp [same])
    have notAttribute : name ∉ attributeOperands := fun known => other (List.mem_cons_of_mem _ known)
    rw [Operand.lower, if_neg notValue, if_neg notAttribute]

theorem lower_without_unread {before after : List (String × Operand)} {entry : String × Operand}
    (unread : Unread entry) : Spec.lower ⟨before ++ entry :: after⟩ = Spec.lower ⟨before ++ after⟩ := by
  unfold Spec.lower
  rw [List.foldl_append, List.foldl_append, List.foldl_cons]
  exact congrArg (after.foldl _) (lower_of_unread unread _)

/-! ### All operands -/

theorem loweredOperands_lower {spec : Spec} (distinct : spec.names.Nodup) : LoweredOperands spec spec.lower := by
  constructor
  -- With distinct names no second entry `value` writes over what the look-up finds.
  case observe =>
    intro observe
    rw [Spec.lower_observe distinct, Option.bind_eq_some_iff]
    simp only [Spec.valueData?_eq_some, Observe.collapse_eq_some_iff]
  case callbacks =>
    intro role name
    rw [Spec.lower_callback? distinct, Option.bind_eq_some_iff]
    simp only [Spec.valueData?_eq_some, lastInRole?_eq_some]
  case attributes =>
    rw [(entriesLowered_lower spec).attributes]
    exact forall₂_attributeBinding? spec.entries
  case types =>
    intro types
    rw [(entriesLowered_lower spec).types, getLast?_types?_eq_some]
  case unread =>
    intro before entry after split unread
    obtain ⟨entries⟩ := spec
    subst split
    exact (lower_without_unread unread).symm

/-- Whether a specification is made by insertions or by compiling a declaration, its operands tell what it
lowers to. -/
theorem lower_told_by_operands :
    (∀ inserted : List (String × Operand),
      LoweredOperands (Spec.empty.insertAll inserted) (Spec.empty.insertAll inserted).lower) ∧
    ∀ options declaration spec, compile options declaration = .ok spec → LoweredOperands spec spec.lower := by
  constructor
  · intro inserted
    have start : Spec.empty.names.Nodup := List.nodup_nil
    exact loweredOperands_lower (Spec.nodup_names_insertAll start inserted)
  · intro options declaration spec compiled
    exact loweredOperands_lower (nodup_names_of_compile compiled)

/-- Operands of every kind under names of other kinds, and the operand `value` twice. -/
def mixedInsertions : List (String × Operand) :=
  [("value", .model ["m"] none), ("class", .events ["blur"]),
    ("readonly", .dataBound ⟨none, ["x", "y"], [⟨"f", .filter, .model⟩, ⟨"g", .formatter, .dom⟩]⟩),
    ("events", .dataBound ⟨none, ["z"], []⟩), ("model", .events ["keyup", ""]),
    ("value", .dataBound ⟨some "m", ["u"],
      [⟨"f", .formatter, .dom⟩, ⟨"g", .filter, .model⟩, ⟨"h", .formatter, .dom⟩]⟩),
    ("disabled", .dataBound ⟨none, [], []⟩)]

def mixedBinding : ElementBinding where
  observe := some (.one "u")
  onGet := some "h"
  updateModel := some "g"
  attributes := [⟨"readonly", some (.many ["x", "y"]), some ⟨.updateModel, "f"⟩⟩, ⟨"disabled", none, none⟩]
  types := some ["keyup", ""]

def classSpec : Spec :=
  ⟨[("class", .dataBound ⟨none, ["a"], [⟨"f", .formatter, .model⟩]⟩), ("note", .dataBound ⟨none, ["b"], []⟩)]⟩

theorem lower_told_by_operands_mixed :
    (Spec.empty.insertAll mixedInsertions).lower = mixedBinding ∧
      LoweredOperands (Spec.empty.insertAll mixedInsertions) mixedBinding ∧
      compile {} "class:a|f+,note:b" = .ok classSpec ∧ LoweredOperands classSpec classSpec.lower := by
  have lowered : (Spec.empty.insertAll mixedInsertions).lower = mixedBinding := by decide +kernel
  have compiled : compile {} "class:a|f+,note:b" = .ok classSpec := by decide +kernel
  obtain ⟨byHand, byCompiling⟩ := lower_told_by_operands
  exact ⟨lowered, lowered ▸ byHand mixedInsertions, compiled, byCompiling {} _ _ compiled⟩

end DataBind
