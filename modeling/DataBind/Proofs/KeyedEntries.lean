import DataBind.KeyMap
import Mathlib.Data.Finset.Card

/-!
# Look-ups in ordered maps

A look-up finds the value that was written last for its key. The keys of a map are distinct, so a map
holds as many entries as different keys were written.
-/

namespace DataBind

universe u

theorem find?_reverse_eq_some {α : Type u} {p : α → Bool} {xs : List α} {x : α} :
    xs.reverse.find? p = some x ↔
      ∃ before after, xs = before ++ x :: after ∧ p x = true ∧ ∀ later ∈ after, p later = false := by
  rw [List.find?_eq_some_iff_append]
  constructor
  · rintro ⟨here, later, earlier, split, free⟩
    refine ⟨earlier.reverse, later.reverse, ?_, here, fun other member => ?_⟩
    · rw [← List.reverse_reverse xs, split]
      simp
    · simpa using free other (List.mem_reverse.mp member)
  · rintro ⟨before, after, rfl, here, free⟩
    refine ⟨here, after.reverse, before.reverse, by simp, fun other member => ?_⟩
    simpa using free other (List.mem_reverse.mp member)

namespace KeyMap

variable {β : Type u}

def insertAll (map : KeyMap β) (entries : List (String × β)) : KeyMap β :=
  entries.foldl (fun map entry => map.insert entry.1 entry.2) map

/-- The value of the last entry under `key`. -/
def lastUnder (key : String) (entries : List (String × β)) : Option β :=
  (entries.reverse.find? fun entry => entry.1 == key).map (·.2)

theorem insertAll_append (map : KeyMap β) (entries more : List (String × β)) :
    map.insertAll (entries ++ more) = (map.insertAll entries).insertAll more :=
  List.foldl_append

theorem lastUnder_append (key : String) (entries more : List (String × β)) :
    lastUnder key (entries ++ more) = (lastUnder key more).or (lastUnder key entries) := by
  rw [lastUnder, List.reverse_append, List.find?_append, Option.map_or]
  rfl

theorem lastUnder_singleton (key : String) (entry : String × β) :
    lastUnder key [entry] = if entry.1 = key then some entry.2 else none := by
  by_cases same : entry.1 = key <;> simp [lastUnder, same]

theorem lastUnder_concat (key : String) (entries : List (String × β)) (entry : String × β) :
    lastUnder key (entries ++ [entry]) =
      if entry.1 = key then some entry.2 else lastUnder key entries := by
  rw [lastUnder_append, lastUnder_singleton]
  split <;> rfl

theorem lastUnder_eq_none {key : String} {entries : List (String × β)} :
    lastUnder key entries = none ↔ key ∉ entries.map (·.1) := by
  simp only [lastUnder, Option.map_eq_none_iff, List.find?_eq_none, List.mem_reverse, beq_iff_eq,
    List.mem_map, not_exists, not_and]

theorem lastUnder_eq_some {key : String} {value : β} {entries : List (String × β)} :
    lastUnder key entries = some value ↔
      ∃ before after, entries = before ++ (key, value) :: after ∧ key ∉ after.map (·.1) := by
  constructor
  · intro h
    obtain ⟨⟨name, _⟩, found, rfl⟩ := Option.map_eq_some_iff.mp h
    obtain ⟨before, after, split, same, free⟩ := find?_reverse_eq_some.mp found
    obtain rfl : name = key := by simpa using same
    refine ⟨before, after, split, fun written => ?_⟩
    obtain ⟨entry, member, same⟩ := List.mem_map.mp written
    have different := free entry member
    simp [same] at different
  · rintro ⟨before, after, rfl, unwritten⟩
    refine Option.map_eq_some_iff.mpr ⟨(key, value), find?_reverse_eq_some.mpr ?_, rfl⟩
    refine ⟨before, after, rfl, beq_self_eq_true key, fun entry member => beq_false_of_ne ?_⟩
    rintro rfl
    exact unwritten (List.mem_map_of_mem member)

theorem lastUnder_filterMap {α : Type u} {f : α → Option (String × β)} {xs : List α} {key : String}
    {value : β} :
    lastUnder key (xs.filterMap f) = some value ↔
      ∃ before x after, xs = before ++ x :: after ∧ f x = some (key, value) ∧
        ∀ y ∈ after, ∀ other, f y ≠ some (key, other) := by
  rw [lastUnder_eq_some]
  constructor
  · rintro ⟨front, rest, split, unwritten⟩
    obtain ⟨before, tail, rfl, -, split⟩ := List.filterMap_eq_append_iff.mp split
    obtain ⟨unused, x, after, rfl, none, hx, rfl⟩ := List.filterMap_eq_cons_iff.mp split
    refine ⟨before ++ unused, x, after, by simp, hx, fun y member other hy => unwritten ?_⟩
    exact List.mem_map.mpr ⟨(key, other), List.mem_filterMap.mpr ⟨y, member, hy⟩, rfl⟩
  · rintro ⟨before, x, after, rfl, hx, later⟩
    refine ⟨before.filterMap f, after.filterMap f, ?_, fun written => ?_⟩
    · rw [List.filterMap_append, List.filterMap_cons, hx]
    · obtain ⟨⟨_, other⟩, member, rfl⟩ := List.mem_map.mp written
      obtain ⟨y, hafter, hy⟩ := List.mem_filterMap.mp member
      exact later y hafter other hy

/-! ### Look-ups -/

theorem find?_exchangeEntry_self (key : String) (value : β) (entries : List (String × β)) :
    (exchangeEntry key value entries).2.find? (fun entry => entry.1 == key) = some (key, value) := by
  induction entries with
  | nil => simp [exchangeEntry]
  | cons head rest ih =>
    obtain ⟨other, old⟩ := head
    unfold exchangeEntry
    split
    · simp
    · rename_i different
      split
      · simp
      · show ((other, old) :: (exchangeEntry key value rest).2).find? _ = _
        rw [List.find?_cons_of_neg (by simpa using different), ih]

theorem find?_exchangeEntry_of_ne {key other : String} (different : key ≠ other) (value : β)
    (entries : List (String × β)) :
    (exchangeEntry key value entries).2.find? (fun entry => entry.1 == other) =
      entries.find? fun entry => entry.1 == other := by
  induction entries with
  | nil => simp [exchangeEntry, different]
  | cons head rest ih =>
    obtain ⟨name, old⟩ := head
    unfold exchangeEntry
    split
    · rename_i same
      subst same
      rw [List.find?_cons_of_neg (by simpa using different),
        List.find?_cons_of_neg (by simpa using different)]
    · split
      · rw [List.find?_cons_of_neg (by simpa using different)]
      · show ((name, old) :: (exchangeEntry key value rest).2).find? _ = _
        rw [List.find?_cons, List.find?_cons, ih]

theorem get?_insert (map : KeyMap β) (key : String) (value : β) (other : String) :
    (map.insert key value).get? other = if key = other then some value else map.get? other := by
  show ((exchangeEntry key value map.entries).2.find? _).map _ = _
  by_cases same : key = other
  · subst same
    rw [if_pos rfl, find?_exchangeEntry_self]
    rfl
  · rw [if_neg same, find?_exchangeEntry_of_ne same]
    rfl

/-- Where the key would be added the keys that follow are later ones, so it is not among them. -/
theorem find?_eq_none_of_before {key : String} {entry : String × β} {rest : List (String × β)}
    (ascending : (entry :: rest).Pairwise KeyBefore) (before : Text.before key.toList entry.1.toList = true) :
    ((entry :: rest).find? fun other => other.1 == key) = none := by
  have later : ∀ other ∈ entry :: rest, Text.before key.toList other.1.toList = true := by
    intro other member
    rcases List.mem_cons.mp member with rfl | member
    · exact before
    · exact Text.before_trans before ((List.pairwise_cons.mp ascending).1 other member)
  rw [List.find?_eq_none]
  intro other member same
  have self := later other member
  rw [eq_of_beq same, Text.before_irrefl] at self
  cases self

theorem exchangeEntry_fst (key : String) (value : β) {entries : List (String × β)}
    (ascending : entries.Pairwise KeyBefore) :
    (exchangeEntry key value entries).1 = (entries.find? fun entry => entry.1 == key).map (·.2) := by
  induction entries with
  | nil => rfl
  | cons head rest ih =>
    obtain ⟨other, old⟩ := head
    unfold exchangeEntry
    split
    · rename_i same
      rw [List.find?_cons_of_pos (by simpa using same)]
      rfl
    · rename_i different
      split
      · rename_i before
        rw [find?_eq_none_of_before ascending before]
        rfl
      · rw [List.find?_cons_of_neg (by simpa using different)]
        exact ih (List.pairwise_cons.mp ascending).2

/-- Exchanging gives what the key stood for before. -/
theorem exchange_eq (map : KeyMap β) (key : String) (value : β) :
    map.exchange key value = (map.get? key, map.insert key value) :=
  Prod.ext (exchangeEntry_fst key value map.ascending) rfl

theorem get?_insertAll (map : KeyMap β) (entries : List (String × β)) (key : String) :
    (map.insertAll entries).get? key = (lastUnder key entries).or (map.get? key) := by
  induction entries using List.reverseRecOn with
  | nil => rfl
  | append_singleton entries entry ih =>
    have last : map.insertAll (entries ++ [entry]) =
        (map.insertAll entries).insert entry.1 entry.2 := insertAll_append map entries [entry]
    rw [last, get?_insert, lastUnder_concat, ih]
    split <;> rfl

theorem get?_insertAll_empty (entries : List (String × β)) (key : String) :
    (empty.insertAll entries).get? key = lastUnder key entries := by
  rw [get?_insertAll]
  exact Option.or_none

/-! ### Keys -/

theorem before_keys (map : KeyMap β) :
    map.keys.Pairwise fun left right => Text.before left.toList right.toList = true :=
  List.pairwise_map.mpr map.ascending

theorem nodup_keys (map : KeyMap β) : map.keys.Nodup :=
  map.before_keys.imp fun {left right} before same => by
    rw [same, Text.before_irrefl] at before
    cases before

theorem mem_keys {map : KeyMap β} {key : String} :
    key ∈ map.keys ↔ ∃ value, map.get? key = some value := by
  constructor
  · intro member
    obtain ⟨entry, hentry, rfl⟩ := List.mem_map.mp member
    obtain ⟨found, hfound⟩ : ∃ found, map.entries.find? (fun other => other.1 == entry.1) = some found :=
      Option.isSome_iff_exists.mp (List.find?_isSome.mpr ⟨entry, hentry, by simp⟩)
    exact ⟨found.2, by rw [get?, hfound]; rfl⟩
  · rintro ⟨value, h⟩
    obtain ⟨entry, found, rfl⟩ := Option.map_eq_some_iff.mp h
    have same : entry.1 = key := by simpa using List.find?_some found
    exact same ▸ List.mem_map_of_mem (List.mem_of_find?_eq_some found)

theorem mem_keys_insertAll_empty {entries : List (String × β)} {key : String} :
    key ∈ (empty.insertAll entries).keys ↔ key ∈ entries.map (·.1) := by
  rw [mem_keys, get?_insertAll_empty, ← Option.isSome_iff_exists, Option.isSome_iff_ne_none, ne_eq,
    lastUnder_eq_none, not_not]

theorem size_insertAll_empty (entries : List (String × β)) :
    (empty.insertAll entries).size = (entries.map (·.1)).toFinset.card := by
  have keys : (empty.insertAll entries).keys.toFinset = (entries.map (·.1)).toFinset := by
    ext key
    rw [List.mem_toFinset, List.mem_toFinset, mem_keys_insertAll_empty]
  rw [← keys, List.toFinset_card_of_nodup (nodup_keys _)]
  exact (List.length_map _).symm

/-! ### Entries in order -/

theorem exchangeEntry_last {key : String} {entries : List (String × β)}
    (before : ∀ entry ∈ entries, Text.before entry.1.toList key.toList = true) (value : β) :
    (exchangeEntry key value entries).2 = entries ++ [(key, value)] := by
  induction entries with
  | nil => rfl
  | cons head rest ih =>
    obtain ⟨other, old⟩ := head
    obtain ⟨first, later⟩ := List.forall_mem_cons.mp before
    have different : other ≠ key := by
      rintro rfl
      rw [Text.before_irrefl] at first
      cases first
    have notBefore : ¬Text.before key.toList other.toList = true := fun second => by
      have both := Text.before_trans first second
      rw [Text.before_irrefl] at both
      cases both
    rw [exchangeEntry, if_neg different, if_neg notBefore]
    exact congrArg (List.cons (other, old)) (ih later)

theorem entries_ofList {entries : List (String × β)} (ascending : entries.Pairwise KeyBefore) :
    (ofList entries).entries = entries := by
  induction entries using List.reverseRecOn with
  | nil => rfl
  | append_singleton entries entry ih =>
    obtain ⟨earlier, -, before⟩ := List.pairwise_append.mp ascending
    have last : ofList (entries ++ [entry]) = (ofList entries).insert entry.1 entry.2 := by
      simp [ofList]
    have inserted : ((ofList entries).insert entry.1 entry.2).entries =
        (exchangeEntry entry.1 entry.2 (ofList entries).entries).2 := rfl
    rw [last, inserted, ih earlier]
    exact exchangeEntry_last (fun other member => before other member entry List.mem_cons_self) entry.2

/-- A map is made again of its entries. -/
theorem ofList_entries (map : KeyMap β) : ofList map.entries = map :=
  ext (entries_ofList map.ascending)

/-! ### Equal maps -/

theorem mem_entries {map : KeyMap β} {entry : String × β} :
    entry ∈ map.entries ↔ map.get? entry.1 = some entry.2 := by
  constructor
  · intro member
    obtain ⟨value, found⟩ := mem_keys.mp (List.mem_map_of_mem member)
    obtain ⟨other, here, rfl⟩ := Option.map_eq_some_iff.mp found
    have same : other.1 = entry.1 := by simpa using List.find?_some here
    have once : other = entry :=
      List.inj_on_of_nodup_map map.nodup_keys (List.mem_of_find?_eq_some here) member same
    rw [found, once]
  · intro found
    obtain ⟨other, here, value⟩ := Option.map_eq_some_iff.mp found
    have key : other.1 = entry.1 := by simpa using List.find?_some here
    have same : other = entry := Prod.ext key value
    exact same ▸ List.mem_of_find?_eq_some here

theorem keyBefore_asymm {left right : String × β} (before : KeyBefore left right) :
    ¬KeyBefore right left := by
  intro after
  have both : KeyBefore left left := Text.before_trans before after
  rw [KeyBefore, Text.before_irrefl] at both
  cases both

/-- Maps with the same look-ups have the same entries in the same order. -/
theorem ext_get? {left right : KeyMap β} (same : ∀ key, left.get? key = right.get? key) :
    left = right := by
  have members (entry : String × β) : entry ∈ left.entries ↔ entry ∈ right.entries := by
    rw [mem_entries, mem_entries, same]
  have perm : left.entries.Perm right.entries :=
    (List.perm_ext_iff_of_nodup (.of_map _ left.nodup_keys) (.of_map _ right.nodup_keys)).mpr members
  exact ext (perm.eq_of_pairwise (fun _ _ _ _ before after => absurd after (keyBefore_asymm before))
    left.ascending right.ascending)

/-! ### Maps written over maps -/

theorem extend_eq_insertAll (map source : KeyMap β) : map.extend source = map.insertAll source.entries := rfl

theorem lastUnder_entries (map : KeyMap β) (key : String) : lastUnder key map.entries = map.get? key := by
  have made : empty.insertAll map.entries = map := ofList_entries map
  rw [← get?_insertAll_empty, made]

theorem get?_extend (map source : KeyMap β) (key : String) :
    (map.extend source).get? key = (source.get? key).or (map.get? key) := by
  rw [extend_eq_insertAll, get?_insertAll, lastUnder_entries]

theorem extend_assoc (first second third : KeyMap β) :
    (first.extend second).extend third = first.extend (second.extend third) := by
  apply ext_get?
  intro key
  rw [get?_extend, get?_extend, get?_extend, get?_extend, Option.or_assoc]

theorem extend_self (map : KeyMap β) : map.extend map = map := by
  apply ext_get?
  intro key
  rw [get?_extend, Option.or_self]

end KeyMap

end DataBind
