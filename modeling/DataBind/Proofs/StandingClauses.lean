import DataBind.Proofs.KeyedEntries
import DataBind.Proofs.NormalForm

/-!
# Clauses that stand

Of the clauses that name one operand the last one stands, in the place of the first. The normal form of
a declaration consists of the clauses that stand, each as it was given.
-/

namespace DataBind

/-- The operand that a clause names: what stands before its first colon. -/
def clauseOperand (clause : String) : String :=
  match Text.cutAt ':' clause with
  | some (name, _) => name
  | none => clause

/-- The last clause that names the operand. -/
def lastClause? (clauses : List String) (name : String) : Option String :=
  clauses.reverse.find? fun clause => clauseOperand clause == name

/-! ### What was inserted last -/

namespace Spec

theorem get?_insertAll_entries (spec : Spec) (entries : List (String × Operand)) (name : String) :
    (spec.insertAll entries).get? name = (KeyMap.lastUnder name entries).or (spec.get? name) := by
  induction entries using List.reverseRecOn with
  | nil => rfl
  | append_singleton entries entry ih =>
    have last : spec.insertAll (entries ++ [entry]) = (spec.insertAll entries).insert entry.1 entry.2 :=
      insertAll_append spec entries [entry]
    rw [last, get?_insert, KeyMap.lastUnder_concat, ih]
    by_cases same : entry.1 = name
    · rw [if_pos same.symm, if_pos same]
      rfl
    · rw [if_neg (Ne.symm same), if_neg same]

/-- Names stand in the order in which each was inserted first. -/
theorem names_insertAll_empty (entries : List (String × Operand)) :
    (empty.insertAll entries).names = (entries.map (·.1)).eraseDups := by
  induction entries using List.reverseRecOn with
  | nil => rfl
  | append_singleton entries entry ih =>
    have last : empty.insertAll (entries ++ [entry]) =
        (empty.insertAll entries).insert entry.1 entry.2 := insertAll_append empty entries [entry]
    rw [last, names_insert, ih, List.map_append, List.eraseDups_append]
    by_cases known : entry.1 ∈ entries.map (·.1)
    · simp [List.removeAll, known]
    · simp [List.removeAll, known, List.eraseDups_cons]

theorem get?_of_mem {spec : Spec} (distinct : spec.names.Nodup) {entry : String × Operand}
    (member : entry ∈ spec.entries) : spec.get? entry.1 = some entry.2 := by
  obtain ⟨entries⟩ := spec
  induction entries with
  | nil => cases member
  | cons head entries ih =>
    obtain ⟨name, operand⟩ := head
    obtain ⟨once, distinct⟩ := List.nodup_cons.mp distinct
    rw [get?_cons]
    rcases List.mem_cons.mp member with rfl | member
    · rw [if_pos rfl]
    · have different : entry.1 ≠ name := by
        intro same
        have listed : entry.1 ∈ entries.map (·.1) := List.mem_map_of_mem member
        exact once (same ▸ listed)
      rw [if_neg different]
      exact ih distinct member

end Spec

/-! ### Clauses and entries -/

theorem clauseOperand_of_readClause {options : CompileOptions} {clause : String}
    {entry : String × Operand} (h : readClause options clause = .ok entry) :
    clauseOperand clause = entry.1 := by
  obtain ⟨payload, freeName, -, rfl, -⟩ := readClause_eq_ok.mp h
  have cut : Text.cutAt ':' (entry.1 ++ ":" ++ payload) = some (entry.1, payload) :=
    Text.cutAt_eq_some.mpr ⟨rfl, freeName⟩
  rw [clauseOperand, cut]

/-- Clauses that are read in order are written from their entries, and name what these name. -/
theorem clauses_of_mapM {options : CompileOptions} {clauses : List String}
    {entries : List (String × Operand)} (read : clauses.mapM (readClause options) = .ok entries) :
    clauses = entries.map entryText ∧ ∀ entry ∈ entries, clauseOperand (entryText entry) = entry.1 := by
  refine ⟨(map_of_mapM_eq_ok (fun _ _ => entryText_of_readClause) read).symm, fun entry member => ?_⟩
  obtain ⟨clause, -, same⟩ := exists_of_mapM_eq_ok read member
  rw [entryText_of_readClause same, clauseOperand_of_readClause same]

theorem lastClause?_concat (clauses : List String) (clause name : String) :
    lastClause? (clauses ++ [clause]) name =
      if clauseOperand clause = name then some clause else lastClause? clauses name := by
  rw [lastClause?, List.reverse_concat, List.find?_cons]
  by_cases same : clauseOperand clause = name
  · rw [if_pos same, beq_iff_eq.mpr same]
  · rw [if_neg same, beq_false_of_ne same]
    rfl

theorem lastClause?_map_entryText {entries : List (String × Operand)}
    (named : ∀ entry ∈ entries, clauseOperand (entryText entry) = entry.1) (name : String) :
    lastClause? (entries.map entryText) name =
      (KeyMap.lastUnder name entries).map fun operand => entryText (name, operand) := by
  induction entries using List.reverseRecOn with
  | nil => rfl
  | append_singleton entries entry ih =>
    have here : clauseOperand (entryText entry) = entry.1 := named entry (by simp)
    have earlier := ih fun other member => named other (List.mem_append_left _ member)
    rw [List.map_append, List.map_singleton, lastClause?_concat, KeyMap.lastUnder_concat, here, earlier]
    by_cases same : entry.1 = name
    · rw [if_pos same, if_pos same, ← same]
      rfl
    · rw [if_neg same, if_neg same]

/-- The normal form has one clause for each operand that is named, in the order of the first clauses, and
this is the last clause of the operand as the declaration has it. -/
theorem text_of_standing {options : CompileOptions} {declaration : String} {spec : Spec}
    (h : compile options declaration = .ok spec) :
    spec.names = ((plainClauses declaration).map clauseOperand).eraseDups ∧
      ∃ standing : List String, spec.text = ",".intercalate standing ∧
        spec.names.map (lastClause? (plainClauses declaration)) = standing.map some := by
  obtain ⟨-, entries, read, rfl⟩ := compile_eq_ok.mp h
  obtain ⟨clauses, named⟩ := clauses_of_mapM read
  have distinct := nodup_names_of_compile h
  have operands : entries.map (·.1) = (entries.map entryText).map clauseOperand := by
    rw [List.map_map]
    exact (List.map_congr_left named).symm
  rw [clauses]
  refine ⟨?_, (Spec.empty.insertAll entries).entries.map entryText, text_eq_intercalate _, ?_⟩
  · rw [Spec.names_insertAll_empty, operands]
  · rw [Spec.names, List.map_map, List.map_map]
    refine List.map_congr_left fun entry member => ?_
    have last : KeyMap.lastUnder entry.1 entries = some entry.2 := by
      have found := Spec.get?_of_mem distinct member
      rw [Spec.get?_insertAll_entries] at found
      exact Option.or_none.symm.trans found
    rw [Function.comp_apply, Function.comp_apply, lastClause?_map_entryText named, last]
    rfl

/-- Three operands are named twice each, one of them by the empty name. -/
theorem text_of_standing_repeated :
    compile {} " :a#b#c ,value:x|f+, events:blur++,value:n|k#y z|-g,:d, events:k" =
        .ok ⟨[("", .dataBound ⟨none, ["d"], []⟩),
          ("value", .dataBound ⟨some "n|k", ["y z"], [⟨"g", .filter, .dom⟩]⟩),
          ("events", .events ["k"])]⟩ ∧
      ∃ standing : List String,
        ":d,value:n|k#y z|-g,events:k" = ",".intercalate standing ∧
          ["", "value", "events"].map (lastClause? (plainClauses
            " :a#b#c ,value:x|f+, events:blur++,value:n|k#y z|-g,:d, events:k")) =
          standing.map some := by
  have compiled : compile {} " :a#b#c ,value:x|f+, events:blur++,value:n|k#y z|-g,:d, events:k" =
      .ok ⟨[("", .dataBound ⟨none, ["d"], []⟩),
        ("value", .dataBound ⟨some "n|k", ["y z"], [⟨"g", .filter, .dom⟩]⟩),
        ("events", .events ["k"])]⟩ := by
    decide +kernel
  exact ⟨compiled, (text_of_standing compiled).2⟩

end DataBind
