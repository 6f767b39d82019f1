import DataBind.Proofs.JsonReading
import DataBind.Spec.Json
import Mathlib.Data.List.Basic

/-!
# Distinct values have distinct texts

Neither a specification nor a map of bindings shares its JSON text with another one. The value under each key
tells one part, parts that are left out included, and the text tells the value.
-/

namespace DataBind

namespace Json

/-- The value of the first member under the key. -/
def valueOf? (key : String) (members : List (String × Json)) : Option Json :=
  (members.find? fun member => member.1 == key).map (·.2)

@[simp]
theorem valueOf?_nil (key : String) : valueOf? key [] = none := rfl

@[simp]
theorem valueOf?_cons (key name : String) (value : Json) (members : List (String × Json)) :
    valueOf? key ((name, value) :: members) = if name = key then some value else valueOf? key members := by
  by_cases same : name = key <;> simp [valueOf?, same]

@[simp]
theorem valueOf?_append (key : String) (members more : List (String × Json)) :
    valueOf? key (members ++ more) = (valueOf? key members).or (valueOf? key more) := by
  rw [valueOf?, List.find?_append, Option.map_or]
  rfl

@[simp]
theorem valueOf?_member? {α : Type} (key name : String) (value : Option α) (toJson : α → Json) :
    valueOf? key (member? name value toJson) = if name = key then value.map toJson else none := by
  cases value <;> simp [member?]

theorem string_injective : Function.Injective Json.string :=
  fun _ _ => Json.string.inj

theorem array_map_injective {α : Type} {toJson : α → Json} (distinct : Function.Injective toJson) :
    Function.Injective fun items : List α => Json.array (items.map toJson) := by
  intro items others same
  exact List.map_injective_iff.mpr distinct (Json.array.inj same)

theorem strings_injective : Function.Injective Json.strings :=
  array_map_injective string_injective

theorem textual_strings (texts : List String) : Textual (strings texts) :=
  .array (List.forall_mem_map.mpr fun text _ => .string text)

theorem textual_member? {α : Type} {toJson : α → Json} (each : ∀ value, Textual (toJson value)) (key : String)
    (value : Option α) : ∀ member ∈ member? key value toJson, Textual member.2 := by
  cases value with
  | none => exact List.forall_mem_nil _
  | some value => exact List.forall_mem_singleton.mpr (each value)

/-- A list that is left out when it is empty. -/
def listed? {α : Type} : List α → Option (List α)
  | [] => none
  | items => some items

theorem listed?_injective {α : Type} : Function.Injective (listed? : List α → Option (List α)) := by
  intro items others same
  have back (items : List α) : (listed? items).getD [] = items := by
    cases items <;> rfl
  rw [← back items, ← back others, same]

/-- Members that are left out all at once, where there are some. -/
theorem optional_injective {α : Type} {members : α → List (String × Json)}
    (distinct : Function.Injective members) (nonempty : ∀ value, members value ≠ []) :
    Function.Injective fun value? : Option α => value?.elim [] members := by
  intro value? other? same
  cases value? with
  | none =>
    cases other? with
    | none => rfl
    | some other => exact absurd same.symm (nonempty other)
  | some value =>
    cases other? with
    | none => exact absurd same (nonempty value)
    | some other => rw [distinct same]

end Json

open Json

/-! ### Specifications -/

theorem FilterKind.name_injective : Function.Injective FilterKind.name := by
  intro kind other
  cases kind <;> cases other <;> decide

theorem FilterTarget.name_injective : Function.Injective FilterTarget.name := by
  intro target other
  cases target <;> cases other <;> decide

theorem Filter.toJson_injective : Function.Injective Filter.toJson := by
  rintro ⟨name, kind, target⟩ ⟨name', kind', target'⟩ same
  simp only [Filter.toJson, Json.object.injEq, List.cons.injEq, Prod.mk.injEq, true_and, and_true,
    Json.string.injEq] at same
  obtain ⟨rfl, kinds, targets⟩ := same
  rw [FilterKind.name_injective kinds, FilterTarget.name_injective targets]

theorem Filter.textual_toJson (filter : Filter) : Textual filter.toJson := by
  refine .object ?_
  simp only [List.forall_mem_cons]
  exact ⟨.string _, .string _, .string _, List.forall_mem_nil _⟩

namespace DataBound

theorem members_eq (data : DataBound) :
    data.members = member? "model" data.model .string ++ [("attributes", .strings data.attributes)] ++
      member? "filters" (listed? data.filters) fun filters => .array (filters.map Filter.toJson) := by
  obtain ⟨model, attributes, filters⟩ := data
  cases filters <;> rfl

theorem members_injective : Function.Injective members := by
  intro data other same
  have model := congrArg (valueOf? "model") same
  have attributes := congrArg (valueOf? "attributes") same
  have filters := congrArg (valueOf? "filters") same
  simp only [members_eq, valueOf?_append, valueOf?_member?, valueOf?_cons, valueOf?_nil, reduceIte,
    String.reduceEq, Option.or_none, Option.none_or, Option.some.injEq] at model attributes filters
  replace model := Option.map_injective string_injective model
  replace attributes := strings_injective attributes
  replace filters := listed?_injective
    (Option.map_injective (array_map_injective Filter.toJson_injective) filters)
  cases data
  cases other
  simp only at model attributes filters
  subst model attributes filters
  rfl

theorem textual_members (data : DataBound) : ∀ member ∈ data.members, Textual member.2 := by
  rw [members_eq, List.forall_mem_append, List.forall_mem_append, List.forall_mem_singleton]
  refine ⟨⟨textual_member? .string _ _, textual_strings _⟩, textual_member? (fun filters => ?_) _ _⟩
  exact .array (List.forall_mem_map.mpr fun filter _ => filter.textual_toJson)

theorem members_ne_nil (data : DataBound) : data.members ≠ [] := by
  rw [members_eq]
  simp

theorem valueOf?_optional_members {key : String} (other : key ∉ ["model", "attributes", "filters"])
    (data? : Option DataBound) : valueOf? key (data?.elim [] members) = none := by
  simp only [List.mem_cons, List.not_mem_nil, or_false, not_or] at other
  cases data? with
  | none => rfl
  | some data => simp [members_eq, Ne.symm other.1, Ne.symm other.2.1, Ne.symm other.2.2]

end DataBound

namespace Operand

/-- Model names, event types and data, as far as the operand has them. -/
def parts : Operand → Option (List String) × Option (List String) × Option DataBound
  | dataBound data => (none, none, some data)
  | events types => (none, some types, none)
  | model names legacy => (some names, none, legacy)

theorem parts_injective : Function.Injective parts := by
  intro operand other same
  cases operand <;> cases other <;> cases same <;> rfl

theorem toJson_eq (operand : Operand) :
    operand.toJson = .object (member? "modelNames" operand.parts.1 .strings ++
      member? "types" operand.parts.2.1 .strings ++ operand.parts.2.2.elim [] DataBound.members) := by
  cases operand with
  | dataBound data => rfl
  | events types => rfl
  | model names legacy => cases legacy <;> rfl

theorem toJson_injective : Function.Injective toJson := by
  intro operand other same
  rw [toJson_eq, toJson_eq] at same
  replace same := Json.object.inj same
  have named := DataBound.valueOf?_optional_members (by decide : "modelNames" ∉ ["model", "attributes", "filters"])
  have typed := DataBound.valueOf?_optional_members (by decide : "types" ∉ ["model", "attributes", "filters"])
  have names := congrArg (valueOf? "modelNames") same
  have types := congrArg (valueOf? "types") same
  simp only [valueOf?_append, valueOf?_member?, named, typed, reduceIte, String.reduceEq, Option.or_none,
    Option.none_or] at names types
  replace names := Option.map_injective strings_injective names
  replace types := Option.map_injective strings_injective types
  rw [names, types] at same
  have data := optional_injective DataBound.members_injective DataBound.members_ne_nil (List.append_cancel_left same)
  exact parts_injective (Prod.ext names (Prod.ext types data))

theorem textual_toJson (operand : Operand) : Textual operand.toJson := by
  rw [toJson_eq]
  refine .object (List.forall_mem_append.mpr ⟨List.forall_mem_append.mpr ⟨?_, ?_⟩, ?_⟩)
  · exact textual_member? textual_strings _ _
  · exact textual_member? textual_strings _ _
  · cases operand.parts.2.2 with
    | none => exact List.forall_mem_nil _
    | some data => exact data.textual_members

end Operand

/-- Listed under their keys, distinct values stay distinct. -/
theorem map_key_injective {β : Type} {toJson : β → Json} (distinct : Function.Injective toJson) :
    Function.Injective fun entries : List (String × β) =>
      Json.object (entries.map fun entry => (entry.1, toJson entry.2)) := by
  intro entries others same
  refine List.map_injective_iff.mpr ?_ (Json.object.inj same)
  rintro ⟨key, value⟩ ⟨key', value'⟩ entry
  obtain ⟨keys, values⟩ := Prod.mk.inj entry
  exact Prod.ext keys (distinct values)

theorem Spec.toJson_injective : Function.Injective Spec.toJson := by
  intro spec other same
  cases spec
  cases other
  exact congrArg Spec.mk (map_key_injective Operand.toJson_injective same)

theorem Spec.textual_toJson (spec : Spec) : Textual spec.toJson :=
  .object (List.forall_mem_map.mpr fun entry _ => entry.2.textual_toJson)

/-! ### Bindings -/

theorem CallbackRole.name_injective : Function.Injective CallbackRole.name := by
  intro role other
  cases role <;> cases other <;> decide

theorem Observe.toJson_injective : Function.Injective Observe.toJson := by
  intro observe other same
  cases observe with
  | one name =>
    cases other with
    | one name' => rw [string_injective same]
    | many names' => cases same
  | many names =>
    cases other with
    | one name' => cases same
    | many names' => rw [strings_injective same]

theorem Observe.textual_toJson (observe : Observe) : Textual observe.toJson := by
  cases observe with
  | one name => exact .string name
  | many names => exact textual_strings names

namespace Callback

def members (callback : Callback) : List (String × Json) :=
  [(callback.role.name, .string callback.name)]

theorem members_injective : Function.Injective members := by
  intro callback other same
  obtain ⟨roles, names⟩ := Prod.mk.inj (List.cons.inj same).1
  have role : callback.role = other.role := CallbackRole.name_injective roles
  have name : callback.name = other.name := string_injective names
  cases callback
  cases other
  exact congrArg₂ Callback.mk role name

/-- No role goes by the name of what is observed. -/
theorem valueOf?_optional_members (callback? : Option Callback) :
    valueOf? "observe" (callback?.elim [] members) = none := by
  cases callback? with
  | none => rfl
  | some callback =>
    have different : callback.role.name ≠ "observe" := by cases callback.role <;> decide
    simp [members, different]

end Callback

namespace AttributeBinding

theorem toJson_eq (binding : AttributeBinding) :
    binding.toJson = .object ([("name", .string binding.name)] ++
      member? "observe" binding.observe Observe.toJson ++ binding.callback.elim [] Callback.members) := by
  obtain ⟨name, observe, callback⟩ := binding
  cases callback <;> rfl

theorem toJson_injective : Function.Injective toJson := by
  intro binding other same
  rw [toJson_eq, toJson_eq] at same
  replace same := Json.object.inj same
  have observe := congrArg (valueOf? "observe") same
  simp only [valueOf?_append, valueOf?_cons, valueOf?_nil, valueOf?_member?,
    Callback.valueOf?_optional_members, reduceIte, String.reduceEq, Option.or_none, Option.none_or] at observe
  replace observe := Option.map_injective Observe.toJson_injective observe
  obtain ⟨first, rest⟩ := List.cons.inj same
  have name : binding.name = other.name := string_injective (Prod.mk.inj first).2
  rw [observe] at rest
  have callback : binding.callback = other.callback :=
    optional_injective Callback.members_injective (fun _ => List.cons_ne_nil _ _) (List.append_cancel_left rest)
  cases binding
  cases other
  simp only at name observe callback
  subst name observe callback
  rfl

theorem textual_toJson (binding : AttributeBinding) : Textual binding.toJson := by
  rw [toJson_eq]
  refine .object (List.forall_mem_append.mpr ⟨List.forall_mem_append.mpr ⟨?_, ?_⟩, ?_⟩)
  · exact List.forall_mem_singleton.mpr (.string binding.name)
  · exact textual_member? Observe.textual_toJson _ _
  · cases binding.callback with
    | none => exact List.forall_mem_nil _
    | some callback => exact List.forall_mem_singleton.mpr (.string callback.name)

end AttributeBinding

namespace ElementBinding

def members (binding : ElementBinding) : List (String × Json) :=
  member? "observe" binding.observe Observe.toJson ++ member? "onGet" binding.onGet .string ++
    member? "onSet" binding.onSet .string ++ member? "updateView" binding.updateView .string ++
    member? "updateModel" binding.updateModel .string ++
    member? "attributes" (listed? binding.attributes) (fun items => .array (items.map AttributeBinding.toJson)) ++
    member? "events" binding.types .strings

theorem toJson_eq (binding : ElementBinding) : binding.toJson = .object binding.members := by
  obtain ⟨observe, onGet, onSet, updateView, updateModel, attributes, types⟩ := binding
  cases attributes <;> rfl

theorem toJson_injective : Function.Injective toJson := by
  intro binding other same
  rw [toJson_eq, toJson_eq] at same
  have value (key : String) : valueOf? key binding.members = valueOf? key other.members :=
    congrArg (valueOf? key) (Json.object.inj same)
  have observe := value "observe"
  have onGet := value "onGet"
  have onSet := value "onSet"
  have updateView := value "updateView"
  have updateModel := value "updateModel"
  have attributes := value "attributes"
  have types := value "events"
  simp only [members, valueOf?_append, valueOf?_member?, reduceIte, String.reduceEq, Option.or_none,
    Option.none_or] at observe onGet onSet updateView updateModel attributes types
  replace observe := Option.map_injective Observe.toJson_injective observe
  replace onGet := Option.map_injective string_injective onGet
  replace onSet := Option.map_injective string_injective onSet
  replace updateView := Option.map_injective string_injective updateView
  replace updateModel := Option.map_injective string_injective updateModel
  replace attributes := listed?_injective
    (Option.map_injective (array_map_injective AttributeBinding.toJson_injective) attributes)
  replace types := Option.map_injective strings_injective types
  cases binding
  cases other
  simp only at observe onGet onSet updateView updateModel attributes types
  subst observe onGet onSet updateView updateModel attributes types
  rfl

theorem textual_toJson (binding : ElementBinding) : Textual binding.toJson := by
  have name (key : String) (callback : Option String) :
      ∀ member ∈ member? key callback .string, Textual member.2 := textual_member? .string key callback
  have attributes (items : List AttributeBinding) :
      Textual (.array (items.map AttributeBinding.toJson)) :=
    .array (List.forall_mem_map.mpr fun item _ => item.textual_toJson)
  rw [toJson_eq]
  refine .object ?_
  simp only [members, List.forall_mem_append]
  exact ⟨⟨⟨⟨⟨⟨textual_member? Observe.textual_toJson _ _, name _ _⟩, name _ _⟩, name _ _⟩, name _ _⟩,
    textual_member? attributes _ _⟩, textual_member? textual_strings _ _⟩

end ElementBinding

theorem bindingsToJson_injective : Function.Injective bindingsToJson := by
  intro bindings other same
  exact KeyMap.ext (map_key_injective ElementBinding.toJson_injective same)

theorem textual_bindingsToJson (bindings : Bindings) : Textual (bindingsToJson bindings) :=
  .object (List.forall_mem_map.mpr fun entry _ => entry.2.textual_toJson)

/-! ### Texts -/

theorem texts_injective {α : Type} {toJson : α → Json} (distinct : Function.Injective toJson)
    (textual : ∀ value, Textual (toJson value)) :
    (Function.Injective fun value => (toJson value).compact) ∧
      Function.Injective fun value => (toJson value).pretty := by
  constructor
  · intro value other same
    exact distinct (eq_of_text_eq read?_compact (textual value) (textual other) same)
  · intro value other same
    exact distinct (eq_of_text_eq read?_pretty (textual value) (textual other) same)

/-- Compact or pretty, no two specifications have one JSON text, and no two maps of bindings. -/
theorem json_texts_distinct :
    (Function.Injective fun spec : Spec => spec.toJson.compact) ∧
      (Function.Injective fun spec : Spec => spec.toJson.pretty) ∧
      (Function.Injective fun bindings : Bindings => (bindingsToJson bindings).compact) ∧
      (Function.Injective fun bindings : Bindings => (bindingsToJson bindings).pretty) := by
  obtain ⟨compactSpec, prettySpec⟩ := texts_injective Spec.toJson_injective Spec.textual_toJson
  obtain ⟨compactBindings, prettyBindings⟩ := texts_injective bindingsToJson_injective textual_bindingsToJson
  exact ⟨compactSpec, prettySpec, compactBindings, prettyBindings⟩

end DataBind
