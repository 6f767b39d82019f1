import DataBind.Proofs.KeyedEntries

/-!
# Reordered lists

Two lists of the same items, of which those that share a key stand in one order. Where an entry overwrites
the earlier ones under its key, both lists leave the same behind.
-/

namespace DataBind

variable {α β : Type}

/-- The lists are permutations of each other, and the items of each key are in the same order in both.
Items without a key may stand anywhere. -/
structure Reordered (key? : α → Option String) (items others : List α) : Prop where
  perm : items.Perm others
  order : ∀ key, (items.filter fun item => key? item = some key) =
    others.filter fun item => key? item = some key

/-- Only the keys of items have to be looked at. -/
theorem reordered_iff {key? : α → Option String} {items others : List α} :
    Reordered key? items others ↔
      items.Perm others ∧ ∀ key ∈ items.filterMap key?,
        (items.filter fun item => key? item = some key) = others.filter fun item => key? item = some key := by
  constructor
  · intro reordered
    exact ⟨reordered.perm, fun key _ => reordered.order key⟩
  · rintro ⟨perm, order⟩
    refine ⟨perm, fun key => ?_⟩
    by_cases used : key ∈ items.filterMap key?
    · exact order key used
    · have unused : ∀ item ∈ items, ¬key? item = some key :=
        fun item member same => used (List.mem_filterMap.mpr ⟨item, member, same⟩)
      have unusedToo : ∀ item ∈ others, ¬key? item = some key :=
        fun item member => unused item (perm.mem_iff.mpr member)
      rw [List.filter_eq_nil_iff.mpr (by simpa using unused),
        List.filter_eq_nil_iff.mpr (by simpa using unusedToo)]

instance decidableReordered [DecidableEq α] (key? : α → Option String) (items others : List α) :
    Decidable (Reordered key? items others) :=
  decidable_of_iff _ reordered_iff.symm

namespace KeyMap

theorem lastUnder_eq_getLast? (key : String) (entries : List (String × β)) :
    lastUnder key entries = (entries.filter fun entry => entry.1 == key).getLast?.map (·.2) := by
  rw [lastUnder, ← List.head?_filter, List.filter_reverse, List.head?_reverse]

end KeyMap

/-- Entries that are read off reordered items, each under a key that tells the key of its item. -/
theorem Reordered.lastUnder {key? : α → Option String} {items others : List α}
    (reordered : Reordered key? items others) {written? : α → Option (String × β)}
    {rename : String → String} (distinct : Function.Injective rename)
    (keyed : ∀ item entry, written? item = some entry → ∃ key, key? item = some key ∧ rename key = entry.1)
    (key : String) :
    KeyMap.lastUnder key (items.filterMap written?) = KeyMap.lastUnder key (others.filterMap written?) := by
  by_cases named : ∃ name, rename name = key
  · obtain ⟨name, rfl⟩ := named
    have under (list : List α) : ((list.filterMap written?).filter fun entry => entry.1 == rename name) =
        (list.filter fun item => key? item = some name).filterMap written? := by
      rw [List.filter_filterMap, List.filterMap_filter]
      refine List.filterMap_congr fun item _ => ?_
      cases read : written? item with
      | none => simp
      | some entry =>
        obtain ⟨known, itemKey, same⟩ := keyed item entry read
        have apart : entry.1 = rename name ↔ known = name := by rw [← same, distinct.eq_iff]
        simp [itemKey, Option.filter, apart]
    rw [KeyMap.lastUnder_eq_getLast?, KeyMap.lastUnder_eq_getLast?, under, under, reordered.order]
  · have unnamed (list : List α) : KeyMap.lastUnder key (list.filterMap written?) = none := by
      rw [KeyMap.lastUnder_eq_none]
      intro written
      obtain ⟨entry, member, rfl⟩ := List.mem_map.mp written
      obtain ⟨item, -, read⟩ := List.mem_filterMap.mp member
      obtain ⟨known, -, same⟩ := keyed item entry read
      exact named ⟨known, same⟩
    rw [unnamed, unnamed]

end DataBind
