import DataBind.Text.Order

/-!
# Maps ordered by key

A `KeyMap` is a list of entries whose keys ascend in the order of their code points, so maps
with the same look-ups are equal. Inserting replaces the value of a key that is present.
-/

namespace DataBind

universe u

def KeyBefore {β : Type u} (left right : String × β) : Prop :=
  Text.before left.1.toList right.1.toList = true

structure KeyMap (β : Type u) where
  entries : List (String × β)
  ascending : entries.Pairwise KeyBefore

namespace KeyMap

variable {β : Type u}

theorem ext {left right : KeyMap β} (h : left.entries = right.entries) : left = right := by
  cases left
  cases right
  cases h
  rfl

instance [DecidableEq β] : DecidableEq (KeyMap β) := fun left right =>
  decidable_of_iff (left.entries = right.entries) ⟨ext, fun h => h ▸ rfl⟩

def empty : KeyMap β := ⟨[], .nil⟩

/-- Replaces the value of `key` or adds it in order; also gives the value that was replaced. -/
def exchangeEntry (key : String) (value : β) : List (String × β) → Option β × List (String × β)
  | [] => (none, [(key, value)])
  | (other, old) :: rest =>
    if other = key then (some old, (key, value) :: rest)
    else if Text.before key.toList other.toList then (none, (key, value) :: (other, old) :: rest)
    else
      let (replaced, rest) := exchangeEntry key value rest
      (replaced, (other, old) :: rest)

theorem mem_exchangeEntry {key : String} {value : β} {entries : List (String × β)}
    {entry : String × β} (h : entry ∈ (exchangeEntry key value entries).2) :
    entry = (key, value) ∨ entry ∈ entries := by
  induction entries with
  | nil => simpa [exchangeEntry] using h
  | cons head rest ih =>
    obtain ⟨other, old⟩ := head
    simp only [exchangeEntry] at h
    split at h
    · simp only [List.mem_cons] at h ⊢
      rcases h with h | h
      · exact .inl h
      · exact .inr (.inr h)
    · split at h
      · simpa using h
      · simp only [List.mem_cons] at h ⊢
        rcases h with h | h
        · exact .inr (.inl h)
        · rcases ih h with h | h
          · exact .inl h
          · exact .inr (.inr h)

theorem ascending_exchangeEntry (key : String) (value : β) {entries : List (String × β)}
    (h : entries.Pairwise KeyBefore) : (exchangeEntry key value entries).2.Pairwise KeyBefore := by
  induction entries with
  | nil => simp [exchangeEntry]
  | cons head rest ih =>
    obtain ⟨other, old⟩ := head
    obtain ⟨hhead, hrest⟩ := List.pairwise_cons.mp h
    simp only [exchangeEntry]
    split
    · rename_i heq
      subst heq
      exact List.pairwise_cons.mpr ⟨hhead, hrest⟩
    · rename_i hne
      split
      · rename_i hlt
        refine List.pairwise_cons.mpr ⟨fun entry hmem => ?_, h⟩
        rcases List.mem_cons.mp hmem with rfl | hmem
        · exact hlt
        · exact Text.before_trans hlt (hhead entry hmem)
      · rename_i hnlt
        have hgt : Text.before other.toList key.toList = true := by
          rcases Text.before_trichotomy other.toList key.toList with h | h | h
          · exact h
          · exact absurd (String.toList_inj.mp h) hne
          · exact absurd h hnlt
        refine List.pairwise_cons.mpr ⟨fun entry hmem => ?_, ih hrest⟩
        rcases mem_exchangeEntry hmem with rfl | hmem
        · exact hgt
        · exact hhead entry hmem

def exchange (map : KeyMap β) (key : String) (value : β) : Option β × KeyMap β :=
  ((exchangeEntry key value map.entries).1,
    ⟨(exchangeEntry key value map.entries).2, ascending_exchangeEntry key value map.ascending⟩)

def insert (map : KeyMap β) (key : String) (value : β) : KeyMap β :=
  (map.exchange key value).2

/-- Writes every entry of `source` over `map`. -/
def extend (map source : KeyMap β) : KeyMap β :=
  source.entries.foldl (fun map (key, value) => map.insert key value) map

def ofList (entries : List (String × β)) : KeyMap β :=
  entries.foldl (fun map (key, value) => map.insert key value) empty

def get? (map : KeyMap β) (key : String) : Option β :=
  (map.entries.find? fun entry => entry.1 == key).map (·.2)

def keys (map : KeyMap β) : List String :=
  map.entries.map (·.1)

def size (map : KeyMap β) : Nat :=
  map.entries.length

end KeyMap

end DataBind
