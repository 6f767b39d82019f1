import DataBind.Proofs.ByteOrder
import DataBind.Proofs.FirstError
import DataBind.Proofs.JsonObjects
import DataBind.Proofs.RunEnds

/-!
# The merged bindings of a view

The bindings of a report map a selector to the binding of the last element with that selector. Every
bound element of the view after the run has a key, nothing else is one, and keys are listed and printed
in the order of their bytes.
-/

namespace DataBind

variable {σ : Type}

/-- The element is selected, its declaration compiles to `spec`, and its id is `id`. -/
structure Bound (options : Options) (element : Element) (id : String) (spec : Spec) : Prop where
  compiled : options.rules.spec? element = some spec
  named : element.id = some id

/-- What the bindings of a report are, told by the view before the run and the one after it. -/
structure MergedBindings (options : Options) (view final : View) (bindings : Bindings) : Prop where
  /-- Elements keep everything but their ids. -/
  elements : final.elements.map Element.anonymous = view.elements.map Element.anonymous
  get? : ∀ key binding, bindings.get? key = some binding ↔
    ∃ before element after id spec, final.elements = before ++ element :: after ∧
      Bound options element id spec ∧ selectorFor id = key ∧ spec.lower = binding ∧
      ∀ later ∈ after, ∀ id' spec', Bound options later id' spec' → selectorFor id' ≠ key
  keyed : ∀ element ∈ final.elements, ∀ spec, options.rules.spec? element = some spec →
    ∃ id, Bound options element id spec ∧ selectorFor id ∈ bindings.keys
  keys : ∀ key ∈ bindings.keys,
    ∃ element ∈ final.elements, ∃ id spec, Bound options element id spec ∧ selectorFor id = key
  ascending : bindings.keys.Pairwise fun left right => Text.utf8Bytes left < Text.utf8Bytes right
  listed : bindings.members.map (·.1) = bindings.keys
  compact : (bindingsToJson bindings).compactChars =
    '\x7b' :: [','].intercalate (bindings.members.map Json.compactMember) ++ ['\x7d']
  pretty : ∀ indent, Json.prettyChars indent (bindingsToJson bindings) =
    '\x7b' :: [','].intercalate (bindings.members.map (Json.prettyMember (indent + 1))) ++
      (if bindings.members = [] then [] else Json.newLine indent) ++ ['\x7d']

theorem binding?_eq_some_iff {options : Options} {element : Element} {key : String}
    {binding : ElementBinding} :
    options.rules.binding? element = some (key, binding) ↔
      ∃ id spec, Bound options element id spec ∧ selectorFor id = key ∧ spec.lower = binding := by
  rw [BindRules.binding?_eq_some]
  constructor
  · rintro ⟨spec, id, compiled, named, same⟩
    cases same
    exact ⟨id, spec, ⟨compiled, named⟩, rfl, rfl⟩
  · rintro ⟨id, spec, bound, rfl, rfl⟩
    exact ⟨spec, id, bound.compiled, bound.named, rfl⟩

theorem get?_bindings {options : Options} {elements : List Element} {key : String}
    {binding : ElementBinding} :
    (KeyMap.empty.insertAll (elements.filterMap options.rules.binding?)).get? key = some binding ↔
      ∃ before element after id spec, elements = before ++ element :: after ∧
        Bound options element id spec ∧ selectorFor id = key ∧ spec.lower = binding ∧
        ∀ later ∈ after, ∀ id' spec', Bound options later id' spec' → selectorFor id' ≠ key := by
  rw [KeyMap.get?_insertAll_empty, KeyMap.lastUnder_filterMap]
  constructor
  · rintro ⟨before, element, after, split, entry, unwritten⟩
    obtain ⟨id, spec, bound, hkey, lowered⟩ := binding?_eq_some_iff.mp entry
    refine ⟨before, element, after, id, spec, split, bound, hkey, lowered, ?_⟩
    intro later member id' spec' bound' same
    exact unwritten later member spec'.lower (binding?_eq_some_iff.mpr ⟨id', spec', bound', same, rfl⟩)
  · rintro ⟨before, element, after, id, spec, split, bound, hkey, lowered, unwritten⟩
    have entry := binding?_eq_some_iff.mpr ⟨id, spec, bound, hkey, lowered⟩
    refine ⟨before, element, after, split, entry, ?_⟩
    intro later member other entry
    obtain ⟨id', spec', bound', same, -⟩ := binding?_eq_some_iff.mp entry
    exact unwritten later member id' spec' bound' same

theorem mem_keys_bindings {options : Options} {elements : List Element} {key : String} :
    key ∈ (KeyMap.empty.insertAll (elements.filterMap options.rules.binding?)).keys ↔
      ∃ element ∈ elements, ∃ id spec, Bound options element id spec ∧ selectorFor id = key := by
  rw [KeyMap.mem_keys_insertAll_empty]
  constructor
  · intro written
    obtain ⟨⟨_, binding⟩, member, rfl⟩ := List.mem_map.mp written
    obtain ⟨element, helement, entry⟩ := List.mem_filterMap.mp member
    obtain ⟨id, spec, bound, same, -⟩ := binding?_eq_some_iff.mp entry
    exact ⟨element, helement, id, spec, bound, same⟩
  · rintro ⟨element, helement, id, spec, bound, same⟩
    have entry := binding?_eq_some_iff.mpr ⟨id, spec, bound, same, rfl⟩
    exact List.mem_map.mpr ⟨_, List.mem_filterMap.mpr ⟨element, helement, entry⟩, rfl⟩

/-- Every run that gives a report merges the bindings of its elements, the last one winning. -/
theorem bindView_merges {options : Options} {ids : IdSource σ} {view : View} {state : σ}
    {log : List Registration} {report : Report}
    (h : (bindView options ids view state log).result = .ok report) :
    MergedBindings options view (bindView options ids view state log).view report.bindings := by
  obtain ⟨progress, run, -⟩ := bindView_eq_ok h
  rw [bindings_of_report h]
  exact {
    elements := run.anonymous
    get? := fun key binding => get?_bindings
    keyed := by
      intro element member spec compiled
      obtain ⟨id, named⟩ := run.identified member compiled
      have bound : Bound options element id spec := ⟨compiled, named⟩
      exact ⟨id, bound, mem_keys_bindings.mpr ⟨element, member, id, spec, bound, rfl⟩⟩
    keys := fun key => mem_keys_bindings.mp
    ascending := ascending_keys _
    listed := keys_members _
    compact := by rw [bindingsToJson_eq, Json.compactChars_object]
    pretty := fun indent => by rw [bindingsToJson_eq, Json.prettyChars_object] }

/-- Two elements with the id `b`, a generated id that is `b` again, a bad declaration and an element
without one. -/
def sharedView : View where
  model := some "person"
  elements := [
    { id := some "b", attributes := KeyMap.ofList [("data-bind", "value:name")] },
    { attributes := KeyMap.ofList [("data-bind", "class:rank")] },
    { id := some "a", attributes := KeyMap.ofList [("data-bind", "value:zip|+f")] },
    { id := some "c", attributes := KeyMap.ofList [("data-bind", "value:")] },
    { id := some "d" },
    { id := some "b", attributes := KeyMap.ofList [("data-bind", "events:blur")] }]

def sharedReport : Report where
  model := "person"
  bindings := KeyMap.ofList [
    ("#a", { observe := some (.one "zip"), onGet := some "f" }), ("#b", { types := some ["blur"] })]
  generatedIds := ["b"]
  skipped := [⟨3, "value:",
    "BIND-010: Malformed operand '': at least one model attribute is required"⟩]

theorem bindView_merges_shared :
    (bindView { onError := .skip } (.cycle ["b"]) sharedView 0 []).result = .ok sharedReport ∧
      MergedBindings { onError := .skip } sharedView
        (bindView { onError := .skip } (.cycle ["b"]) sharedView 0 []).view sharedReport.bindings := by
  have reported :
      (bindView { onError := .skip } (.cycle ["b"]) sharedView 0 []).result = .ok sharedReport := by
    decide +kernel
  exact ⟨reported, bindView_merges reported⟩

end DataBind
