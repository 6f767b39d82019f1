import DataBind.Proofs.DistinctTexts
import DataBind.Proofs.KeyedEntries
import DataBind.View.Json

/-!
# Views in JSON

The JSON text of a view stands for it: reading the text and then the value gives the view back.
-/

namespace DataBind

namespace Json

open KeyMap (lastUnder lastUnder_append lastUnder_singleton)

theorem fields?_object (names : List String) (members : List (String × Json)) :
    (object members).fields? names = some (names.map fun name => lastUnder name members) :=
  congrArg some (List.map_congr_left fun name _ => KeyMap.get?_insertAll_empty members name)

theorem lastUnder_member? {α : Type} (key name : String) (value : Option α) (toJson : α → Json) :
    lastUnder key (member? name value toJson) = if name = key then value.map toJson else none := by
  cases value with
  | none => simp [member?, lastUnder]
  | some value => exact lastUnder_singleton key (name, toJson value)

/-- A text that may be absent is read back from a member that may be left out. -/
theorem field?_optionalText? (text : Option String) :
    field? (text.map string) none optionalText? = some text := by
  cases text <;> rfl

theorem mapM_map_eq_some {α β : Type} (write : α → β) (read : β → Option α)
    (back : ∀ value, read (write value) = some value) (values : List α) :
    (values.map write).mapM read = some values := by
  have each : read ∘ write = fun value => pure value := funext back
  rw [List.mapM_map, each, List.mapM_pure, List.map_id']
  rfl

theorem texts?_toJson (texts : KeyMap String) : (texts.toJson string).texts? = some texts := by
  have entries := mapM_map_eq_some (fun entry : String × String => (entry.1, string entry.2))
    (fun member => member.2.text?.map fun text => (member.1, text)) (fun _ => rfl) texts.entries
  exact Option.bind_eq_some_iff.mpr ⟨texts.entries, entries, congrArg some texts.ofList_entries⟩

end Json

open Json
open KeyMap (lastUnder_append lastUnder_singleton)

/-! ### Values -/

theorem Element.ofJson?_toJson (element : Element) : Element.ofJson? element.toJson = some element := by
  have fields : element.toJson.fields? ["tag", "id", "attributes"] =
      some [element.tag.map .string, element.id.map .string, some (element.attributes.toJson .string)] := by
    simp [toJson, fields?_object, lastUnder_append, lastUnder_member?, lastUnder_singleton]
  have attributes : field? (some (element.attributes.toJson .string)) .empty texts? = some element.attributes :=
    texts?_toJson element.attributes
  simp only [ofJson?, fields, field?_optionalText?, attributes, Option.bind_eq_bind, Option.bind_some]
  rfl

theorem View.ofJson?_toJson (view : View) : View.ofJson? view.toJson = some view := by
  have fields : view.toJson.fields? ["model", "elements"] =
      some [view.model.map .string, some (.array (view.elements.map Element.toJson))] := by
    simp [toJson, fields?_object, lastUnder_append, lastUnder_member?, lastUnder_singleton]
  have elements : field? (some (.array (view.elements.map Element.toJson))) []
      (fun value => value.items?.bind (List.mapM Element.ofJson?)) = some view.elements :=
    mapM_map_eq_some Element.toJson Element.ofJson? Element.ofJson?_toJson view.elements
  simp only [ofJson?, fields, field?_optionalText?, Option.bind_eq_bind, Option.bind_some, elements]
  rfl

/-! ### Texts -/

theorem Element.textual_toJson (element : Element) : Textual element.toJson := by
  have attributes : Textual (element.attributes.toJson .string) :=
    .object (List.forall_mem_map.mpr fun entry _ => .string entry.2)
  refine .object ?_
  simp only [List.forall_mem_append]
  exact ⟨⟨textual_member? .string _ _, textual_member? .string _ _⟩, List.forall_mem_singleton.mpr attributes⟩

theorem View.textual_toJson (view : View) : Textual view.toJson := by
  have elements : Textual (.array (view.elements.map Element.toJson)) :=
    .array (List.forall_mem_map.mpr fun element _ => element.textual_toJson)
  refine .object ?_
  simp only [List.forall_mem_append]
  exact ⟨textual_member? .string _ _, List.forall_mem_singleton.mpr elements⟩

/-- What is written of a view as JSON is read as this view. -/
theorem View.ofJson?_pretty (view : View) : (read? view.toJson.pretty).bind View.ofJson? = some view := by
  rw [read?_pretty view.textual_toJson, Option.bind_some, View.ofJson?_toJson]

end DataBind
