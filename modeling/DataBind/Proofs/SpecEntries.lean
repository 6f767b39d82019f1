import DataBind.Spec.Basic

/-!
# Specifications as ordered dictionaries

Inserting a name that is new appends it, inserting it again changes the operand in place. So names
stay distinct, and inserting entries with new names one after the other only appends them. Inserting the
entries of another specification is the same as inserting what that one was made of.
-/

namespace DataBind.Spec

def insertAll (spec : Spec) (entries : List (String × Operand)) : Spec :=
  entries.foldl (fun spec entry => spec.insert entry.1 entry.2) spec

theorem insertAll_cons (spec : Spec) (entry : String × Operand) (entries : List (String × Operand)) :
    spec.insertAll (entry :: entries) = (spec.insert entry.1 entry.2).insertAll entries := rfl

theorem names_exchangeEntry (name : String) (operand : Operand) (entries : List (String × Operand)) :
    (exchangeEntry name operand entries).2.map (·.1) =
      if name ∈ entries.map (·.1) then entries.map (·.1) else entries.map (·.1) ++ [name] := by
  induction entries with
  | nil => rfl
  | cons head rest ih =>
    obtain ⟨other, old⟩ := head
    by_cases same : other = name
    · simp [exchangeEntry, same]
    · rw [exchangeEntry, if_neg same]
      simp only [List.map_cons, ih, List.mem_cons, Ne.symm same, false_or]
      split <;> rfl

theorem exchangeEntry_fresh {name : String} {entries : List (String × Operand)}
    (fresh : name ∉ entries.map (·.1)) (operand : Operand) :
    (exchangeEntry name operand entries).2 = entries ++ [(name, operand)] := by
  induction entries with
  | nil => rfl
  | cons head rest ih =>
    obtain ⟨other, old⟩ := head
    simp only [List.map_cons, List.mem_cons, not_or] at fresh
    rw [exchangeEntry, if_neg (Ne.symm fresh.1)]
    simp [ih fresh.2]

theorem mem_exchangeEntry {name : String} {operand : Operand} {entries : List (String × Operand)}
    {entry : String × Operand} (h : entry ∈ (exchangeEntry name operand entries).2) :
    entry = (name, operand) ∨ entry ∈ entries := by
  induction entries with
  | nil => simpa [exchangeEntry] using h
  | cons head rest ih =>
    obtain ⟨other, old⟩ := head
    unfold exchangeEntry at h
    split at h
    · rcases List.mem_cons.mp h with h | h
      · exact .inl h
      · exact .inr (List.mem_cons_of_mem _ h)
    · rcases List.mem_cons.mp h with h | h
      · exact .inr (h ▸ List.mem_cons_self)
      · exact (ih h).imp_right (List.mem_cons_of_mem _)

theorem names_insert (spec : Spec) (name : String) (operand : Operand) :
    (spec.insert name operand).names =
      if name ∈ spec.names then spec.names else spec.names ++ [name] :=
  names_exchangeEntry name operand spec.entries

theorem nodup_names_insert {spec : Spec} (distinct : spec.names.Nodup) (name : String)
    (operand : Operand) : (spec.insert name operand).names.Nodup := by
  rw [names_insert]
  split
  · exact distinct
  · rename_i fresh
    exact List.nodup_append.mpr ⟨distinct, by simp, by grind⟩

theorem nodup_names_insertAll {spec : Spec} (distinct : spec.names.Nodup)
    (entries : List (String × Operand)) : (spec.insertAll entries).names.Nodup := by
  induction entries generalizing spec with
  | nil => exact distinct
  | cons entry entries ih => exact ih (nodup_names_insert distinct entry.1 entry.2)

theorem mem_insertAll {spec : Spec} {entries : List (String × Operand)} {entry : String × Operand}
    (h : entry ∈ (spec.insertAll entries).entries) : entry ∈ spec.entries ∨ entry ∈ entries := by
  induction entries generalizing spec with
  | nil => exact .inl h
  | cons head entries ih =>
    rw [insertAll_cons] at h
    rcases ih h with h | h
    · rcases mem_exchangeEntry h with rfl | h
      · exact .inr List.mem_cons_self
      · exact .inl h
    · exact .inr (List.mem_cons_of_mem _ h)

theorem mem_names_insertAll {spec : Spec} {entries : List (String × Operand)} {name : String} :
    name ∈ (spec.insertAll entries).names ↔ name ∈ spec.names ∨ name ∈ entries.map (·.1) := by
  induction entries generalizing spec with
  | nil => simp [insertAll]
  | cons head entries ih =>
    rw [insertAll_cons, ih, names_insert]
    split <;> grind

/-- Entries with new and distinct names are appended in their order. -/
theorem entries_insertAll {spec : Spec} {entries : List (String × Operand)}
    (distinct : (spec.names ++ entries.map (·.1)).Nodup) :
    (spec.insertAll entries).entries = spec.entries ++ entries := by
  induction entries generalizing spec with
  | nil => simp [insertAll]
  | cons entry entries ih =>
    have fresh : entry.1 ∉ spec.names := by
      intro known
      have apart := (List.nodup_append.mp distinct).2.2
      exact apart entry.1 known entry.1 (by simp) rfl
    have appended : (spec.insert entry.1 entry.2).entries = spec.entries ++ [entry] :=
      exchangeEntry_fresh fresh entry.2
    rw [insertAll_cons, ih, appended, List.append_assoc, List.singleton_append]
    rw [names_insert, if_neg fresh, List.append_assoc]
    exact distinct

theorem insertAll_entries {spec : Spec} (distinct : spec.names.Nodup) :
    empty.insertAll spec.entries = spec := by
  have same : (empty.insertAll spec.entries).entries = spec.entries :=
    entries_insertAll distinct
  cases spec
  exact congrArg Spec.mk same

/-! ### Entries of another specification -/

theorem insertAll_append (spec : Spec) (entries more : List (String × Operand)) :
    spec.insertAll (entries ++ more) = (spec.insertAll entries).insertAll more :=
  List.foldl_append

theorem exchangeEntry_exchangeEntry (name : String) (old operand : Operand)
    (entries : List (String × Operand)) :
    (exchangeEntry name operand (exchangeEntry name old entries).2).2 =
      (exchangeEntry name operand entries).2 := by
  induction entries with
  | nil => simp [exchangeEntry]
  | cons head rest ih =>
    obtain ⟨other, value⟩ := head
    by_cases same : other = name
    · simp [exchangeEntry, same]
    · simp [exchangeEntry, same, ih]

theorem exchangeEntry_comm {name other : String} {entries : List (String × Operand)}
    (known : name ∈ entries.map (·.1)) (different : other ≠ name) (operand value : Operand) :
    (exchangeEntry name operand (exchangeEntry other value entries).2).2 =
      (exchangeEntry other value (exchangeEntry name operand entries).2).2 := by
  induction entries with
  | nil => cases known
  | cons head rest ih =>
    obtain ⟨first, old⟩ := head
    by_cases here : first = name
    · simp [exchangeEntry, here, Ne.symm different]
    · have later : name ∈ rest.map (·.1) := by simpa [Ne.symm here] using known
      by_cases there : first = other
      · simp [exchangeEntry, there, different]
      · simp [exchangeEntry, here, there, ih later]

theorem insert_insert (spec : Spec) (name : String) (old operand : Operand) :
    (spec.insert name old).insert name operand = spec.insert name operand :=
  congrArg Spec.mk (exchangeEntry_exchangeEntry name old operand spec.entries)

/-- A known name keeps its place, so it may as well be inserted before entries of other names. -/
theorem insertAll_insert_comm {spec : Spec} {name : String} {entries : List (String × Operand)}
    (known : name ∈ spec.names) (others : name ∉ entries.map (·.1)) (operand : Operand) :
    (spec.insertAll entries).insert name operand = (spec.insert name operand).insertAll entries := by
  induction entries generalizing spec with
  | nil => rfl
  | cons entry entries ih =>
    obtain ⟨different, others⟩ : name ≠ entry.1 ∧ name ∉ entries.map (·.1) := by simpa using others
    have still : name ∈ (spec.insert entry.1 entry.2).names := by
      rw [names_insert]
      split <;> simp [known]
    have swap : (spec.insert entry.1 entry.2).insert name operand =
        (spec.insert name operand).insert entry.1 entry.2 :=
      congrArg Spec.mk (exchangeEntry_comm known (Ne.symm different) operand entry.2)
    rw [insertAll_cons, insertAll_cons, ih still others, swap]

theorem insertAll_exchangeEntry {entries : List (String × Operand)}
    (distinct : (entries.map (·.1)).Nodup) (spec : Spec) (name : String) (operand : Operand) :
    spec.insertAll (exchangeEntry name operand entries).2 =
      (spec.insertAll entries).insert name operand := by
  induction entries generalizing spec with
  | nil => rfl
  | cons head rest ih =>
    obtain ⟨other, old⟩ := head
    obtain ⟨once, distinct⟩ := List.nodup_cons.mp distinct
    by_cases same : other = name
    · subst same
      have known : other ∈ (spec.insert other old).names := by
        rw [names_insert]
        split <;> simp [*]
      rw [exchangeEntry, if_pos rfl, insertAll_cons, insertAll_cons,
        insertAll_insert_comm known once, insert_insert]
    · rw [exchangeEntry, if_neg same]
      exact ih distinct (spec.insert other old)

/-- Names given twice may be settled among the new entries first. -/
theorem insertAll_entries_insertAll {base : Spec} (distinct : base.names.Nodup) (spec : Spec)
    (entries : List (String × Operand)) :
    spec.insertAll (base.insertAll entries).entries =
      (spec.insertAll base.entries).insertAll entries := by
  induction entries generalizing base with
  | nil => rfl
  | cons entry entries ih =>
    have settled : spec.insertAll (base.insert entry.1 entry.2).entries =
        (spec.insertAll base.entries).insert entry.1 entry.2 :=
      insertAll_exchangeEntry distinct spec entry.1 entry.2
    rw [insertAll_cons, ih (nodup_names_insert distinct entry.1 entry.2), settled]
    rfl

/-! ### Look-ups -/

theorem find?_exchangeEntry_self (name : String) (operand : Operand)
    (entries : List (String × Operand)) :
    ((exchangeEntry name operand entries).2.find? fun entry => entry.1 == name) =
      some (name, operand) := by
  induction entries with
  | nil => simp [exchangeEntry]
  | cons head rest ih =>
    obtain ⟨other, old⟩ := head
    by_cases same : other = name
    · simp [exchangeEntry, same]
    · simp [exchangeEntry, same, ih]

theorem find?_exchangeEntry_of_ne {name other : String} (different : other ≠ name)
    (operand : Operand) (entries : List (String × Operand)) :
    ((exchangeEntry name operand entries).2.find? fun entry => entry.1 == other) =
      entries.find? fun entry => entry.1 == other := by
  induction entries with
  | nil => simp [exchangeEntry, Ne.symm different]
  | cons head rest ih =>
    obtain ⟨first, old⟩ := head
    by_cases same : first = name
    · simp [exchangeEntry, same, Ne.symm different]
    · simp [exchangeEntry, same, List.find?_cons, ih]

theorem get?_insert (spec : Spec) (name : String) (operand : Operand) (other : String) :
    (spec.insert name operand).get? other = if other = name then some operand else spec.get? other := by
  by_cases same : other = name
  · subst same
    have found := find?_exchangeEntry_self other operand spec.entries
    rw [if_pos rfl]
    exact congrArg (Option.map (·.2)) found
  · have kept := find?_exchangeEntry_of_ne same operand spec.entries
    rw [if_neg same]
    exact congrArg (Option.map (·.2)) kept

theorem get?_eq_none {spec : Spec} {name : String} (absent : name ∉ spec.names) :
    spec.get? name = none := by
  rw [get?, Option.map_eq_none_iff, List.find?_eq_none]
  intro entry member same
  exact absent (List.mem_map.mpr ⟨entry, member, eq_of_beq same⟩)

theorem get?_cons (name : String) (operand : Operand) (entries : List (String × Operand))
    (other : String) :
    Spec.get? ⟨(name, operand) :: entries⟩ other =
      if other = name then some operand else Spec.get? ⟨entries⟩ other := by
  by_cases same : name = other
  · simp [get?, same]
  · simp [get?, same, Ne.symm same]

/-- Of two operands of one name the one that is inserted stands. -/
theorem get?_insertAll {more : Spec} (distinct : more.names.Nodup) (spec : Spec) (name : String) :
    (spec.insertAll more.entries).get? name = (more.get? name).or (spec.get? name) := by
  obtain ⟨entries⟩ := more
  induction entries generalizing spec with
  | nil => rfl
  | cons entry entries ih =>
    obtain ⟨known, operand⟩ := entry
    obtain ⟨once, distinct⟩ := List.nodup_cons.mp distinct
    have rest := ih (spec.insert known operand) distinct
    rw [insertAll_cons, rest, get?_insert, get?_cons]
    by_cases same : name = known
    · subst same
      rw [get?_eq_none once, if_pos rfl, if_pos rfl]
      rfl
    · rw [if_neg same, if_neg same]

/-- Known names keep their places and new ones follow in their order. -/
theorem names_insertAll {more : Spec} (distinct : more.names.Nodup) (spec : Spec) :
    (spec.insertAll more.entries).names = spec.names ++ more.names.filter (· ∉ spec.names) := by
  obtain ⟨entries⟩ := more
  induction entries generalizing spec with
  | nil => exact (List.append_nil _).symm
  | cons entry entries ih =>
    obtain ⟨name, operand⟩ := entry
    obtain ⟨once, distinct⟩ := List.nodup_cons.mp distinct
    have rest := ih (spec.insert name operand) distinct
    have split : names ⟨(name, operand) :: entries⟩ = name :: names ⟨entries⟩ := rfl
    rw [insertAll_cons, rest, names_insert, split]
    by_cases known : name ∈ spec.names
    · rw [if_pos known, List.filter_cons_of_neg (by simpa using known)]
    · have later : (names ⟨entries⟩).filter (· ∉ spec.names ++ [name]) =
          (names ⟨entries⟩).filter (· ∉ spec.names) := by
        refine List.filter_congr fun other member => ?_
        have different : other ≠ name := fun same => once (same ▸ member)
        simp [different]
      rw [if_neg known, List.filter_cons_of_pos (by simpa using known), later, List.append_assoc]
      rfl

end DataBind.Spec
