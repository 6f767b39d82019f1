import DataBind.Binding.Calls
import DataBind.Proofs.ByteOrder
import DataBind.Proofs.DistinctTexts

/-!
# Maps of bindings under construction

Whatever was inserted into two maps of bindings and copied from one into the other, each of them is the sorted
map of the entries that were written to it. Its look-ups alone tell it and its JSON texts, whatever the order
of the writes.
-/

namespace DataBind

theorem Side.eq_other_of_ne {side other : Side} (different : side ≠ other) : other = side.other := by
  cases side with
  | left =>
    cases other with
    | left => exact absurd rfl different
    | right => rfl
  | right =>
    cases other with
    | left => rfl
    | right => exact absurd rfl different

namespace BindingsPair

@[simp] theorem on_replace_self (pair : BindingsPair) (side : Side) (map : Bindings) :
    (pair.replace side map).on side = map := by
  cases side <;> rfl

@[simp] theorem on_replace_other (pair : BindingsPair) (side : Side) (map : Bindings) :
    (pair.replace side map).on side.other = pair.on side.other := by
  cases side <;> rfl

end BindingsPair

/-- What a map of bindings is after these entries were written to it, in this order. -/
structure SortedBindings (written : List (String × ElementBinding)) (map : Bindings) : Prop where
  get? : ∀ selector, map.get? selector = KeyMap.lastUnder selector written
  keys : ∀ selector, selector ∈ map.keys ↔ selector ∈ written.map (·.1)
  ascending : map.keys.Pairwise fun left right => Text.utf8Bytes left < Text.utf8Bytes right
  size : map.size = (written.map (·.1)).toFinset.card

theorem sortedBindings_insertAll (written : List (String × ElementBinding)) :
    SortedBindings written (KeyMap.empty.insertAll written) where
  get? := KeyMap.get?_insertAll_empty written
  keys := fun _ => KeyMap.mem_keys_insertAll_empty
  ascending := ascending_keys _
  size := KeyMap.size_insertAll_empty written

namespace BindingsCall

/-- The side whose map a call works on. -/
def side : BindingsCall → Side
  | insert side _ _ => side
  | extend side => side

/-- The entries that a call writes: copying writes all those of the source. -/
def entries (pair : BindingsPair) : BindingsCall → List (String × ElementBinding)
  | insert _ selector binding => [(selector, binding)]
  | extend side => (pair.on side.other).entries

/-- The entries that calls write to one side, in their order. -/
def written (side : Side) : List BindingsCall → BindingsPair → List (String × ElementBinding)
  | [], _ => []
  | call :: calls, pair =>
    (if call.side = side then call.entries pair else []) ++ written side calls (call.perform pair).2

/-! ### One call -/

theorem perform_self (pair : BindingsPair) (call : BindingsCall) :
    (call.perform pair).2.on call.side = (pair.on call.side).insertAll (call.entries pair) := by
  cases call with
  | insert side selector binding => exact pair.on_replace_self side _
  | extend side => exact pair.on_replace_self side _

theorem perform_other (pair : BindingsPair) (call : BindingsCall) :
    (call.perform pair).2.on call.side.other = pair.on call.side.other := by
  cases call with
  | insert side selector binding => exact pair.on_replace_other side _
  | extend side => exact pair.on_replace_other side _

theorem on_perform (pair : BindingsPair) (call : BindingsCall) (side : Side) :
    (call.perform pair).2.on side =
      (pair.on side).insertAll (if call.side = side then call.entries pair else []) := by
  by_cases same : call.side = side
  · subst same
    rw [if_pos rfl, perform_self]
  · rw [if_neg same, Side.eq_other_of_ne same, perform_other]
    rfl

/-! ### All calls -/

theorem on_performAll (calls : List BindingsCall) (pair : BindingsPair) (side : Side) :
    (performAll calls pair).on side = (pair.on side).insertAll (written side calls pair) := by
  induction calls generalizing pair with
  | nil => rfl
  | cons call calls ih =>
    have rest : (performAll (call :: calls) pair).on side = _ := ih (call.perform pair).2
    rw [rest, on_perform, ← KeyMap.insertAll_append]
    rfl

theorem sortedBindings_performAll (calls : List BindingsCall) (side : Side) :
    SortedBindings (written side calls .empty) ((performAll calls .empty).on side) := by
  have start : BindingsPair.empty.on side = KeyMap.empty := by cases side <;> rfl
  rw [on_performAll, start]
  apply sortedBindings_insertAll

end BindingsCall

/-- The look-ups of maps agree exactly if the maps are equal, and exactly if their JSON texts are. -/
structure ToldByLookUps (left right : Bindings) : Prop where
  equal : left = right ↔ ∀ selector, left.get? selector = right.get? selector
  compact : (bindingsToJson left).compact = (bindingsToJson right).compact ↔
    ∀ selector, left.get? selector = right.get? selector
  pretty : (bindingsToJson left).pretty = (bindingsToJson right).pretty ↔
    ∀ selector, left.get? selector = right.get? selector

theorem toldByLookUps (left right : Bindings) : ToldByLookUps left right := by
  have equal : left = right ↔ ∀ selector, left.get? selector = right.get? selector :=
    ⟨fun same _ => same ▸ rfl, KeyMap.ext_get?⟩
  obtain ⟨compact, pretty⟩ := texts_injective bindingsToJson_injective textual_bindingsToJson
  exact ⟨equal, compact.eq_iff.trans equal, pretty.eq_iff.trans equal⟩

/-- Copying one map into another, once more, in another grouping, or into itself. -/
structure ExtendLaws (first second third : Bindings) : Prop where
  assoc : (first.extend second).extend third = first.extend (second.extend third)
  again : (first.extend second).extend second = first.extend second
  self : first.extend first = first

theorem extendLaws (first second third : Bindings) : ExtendLaws first second third where
  assoc := KeyMap.extend_assoc first second third
  again := by rw [KeyMap.extend_assoc, KeyMap.extend_self]
  self := KeyMap.extend_self first

/-- After any calls each of the two maps is the sorted map of what was written to it. A further call leaves the
other map as it was, and inserting answers what the selector stood for. Maps of any two runs are told by their
look-ups, and copying keeps its laws. -/
theorem performAll_sortedBindings (calls : List BindingsCall) :
    let pair := BindingsCall.performAll calls .empty
    (∀ side, SortedBindings (BindingsCall.written side calls .empty) (pair.on side)) ∧
      (∀ call : BindingsCall, (call.perform pair).2.on call.side.other = pair.on call.side.other) ∧
      (∀ side selector binding,
        ((BindingsCall.insert side selector binding).perform pair).1 = (pair.on side).get? selector) ∧
      (∀ side others otherSide,
        ToldByLookUps (pair.on side) ((BindingsCall.performAll others .empty).on otherSide)) ∧
      ∀ first second third, ExtendLaws first second third := by
  intro pair
  refine ⟨?_, ?_, ?_, ?_, extendLaws⟩
  · exact BindingsCall.sortedBindings_performAll calls
  · exact BindingsCall.perform_other pair
  · intro side selector binding
    exact congrArg Prod.fst (KeyMap.exchange_eq (pair.on side) selector binding)
  · intro side others otherSide
    apply toldByLookUps

/-- In the order of UTF-16 the last two selectors would change places. -/
example :
    let pair := BindingsCall.performAll
      [.insert .left "#😀" .empty, .insert .right "#～" { types := some ["a"] }, .insert .right "#b" .empty,
        .extend .left, .insert .left "#～" .empty, .extend .right] .empty
    pair.left.keys = ["#b", "#～", "#😀"] ∧ pair.right = pair.left := by
  decide +kernel

end DataBind
