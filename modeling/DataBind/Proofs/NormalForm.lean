import DataBind.Proofs.ClauseReading

/-!
# Normal forms

The text of a compiled specification lists, clause for clause, texts that were read before. Reading
it gives the same specification: the clauses are plain, they are read to the same entries, and entries
with distinct names are inserted in their order.
-/

namespace DataBind

def normalize (options : CompileOptions) (declaration : String) : Except DeclarationError String :=
  (compile options declaration).map Spec.text

/-- Every entry comes from a plain clause, which it is written as. -/
theorem exists_clause_of_mem {options : CompileOptions} {declaration : String} {spec : Spec}
    (h : compile options declaration = .ok spec) {entry : String × Operand}
    (member : entry ∈ spec.entries) :
    entryText entry ∈ plainClauses declaration ∧ readClause options (entryText entry) = .ok entry := by
  obtain ⟨-, entries, read, rfl⟩ := compile_eq_ok.mp h
  have listed : entry ∈ entries := by
    rcases Spec.mem_insertAll member with absent | listed
    · cases absent
    · exact listed
  obtain ⟨clause, hclause, same⟩ := exists_of_mapM_eq_ok read listed
  rw [entryText_of_readClause same]
  exact ⟨hclause, same⟩

theorem entries_ne_nil {options : CompileOptions} {declaration : String} {spec : Spec}
    (h : compile options declaration = .ok spec) : spec.entries ≠ [] := by
  obtain ⟨-, entries, read, rfl⟩ := compile_eq_ok.mp h
  have texts : entries.map entryText = plainClauses declaration :=
    map_of_mapM_eq_ok (fun _ _ => entryText_of_readClause) read
  have nonempty : plainClauses declaration ≠ [] := by
    simp [plainClauses, Text.pieces_ne_nil]
  obtain ⟨entry, rest, rfl⟩ : ∃ entry rest, entries = entry :: rest := by
    apply List.exists_cons_of_ne_nil
    rintro rfl
    exact nonempty texts.symm
  intro empty
  have named : entry.1 ∈ (Spec.empty.insertAll (entry :: rest)).names :=
    Spec.mem_names_insertAll.mpr (.inr (by simp))
  simp [Spec.names, empty] at named

theorem nodup_names_of_compile {options : CompileOptions} {declaration : String} {spec : Spec}
    (h : compile options declaration = .ok spec) : spec.names.Nodup := by
  have start : Spec.empty.names.Nodup := List.nodup_nil
  obtain ⟨-, entries, -, rfl⟩ := compile_eq_ok.mp h
  exact Spec.nodup_names_insertAll start entries

/-! ### Writing a specification as a declaration -/

/-- Between commas the text of the entry is one clause, which is read to the entry. -/
structure PlainEntry (options : CompileOptions) (entry : String × Operand) : Prop where
  comma : ',' ∉ (entryText entry).toList
  trimmed : Text.strip (entryText entry) = entryText entry
  read : readClause options (entryText entry) = .ok entry

theorem plainClauses_of_plain {options : CompileOptions} {spec : Spec}
    (nonempty : spec.entries ≠ []) (plain : ∀ entry ∈ spec.entries, PlainEntry options entry) :
    plainClauses spec.text = spec.entries.map entryText := by
  rw [text_eq_intercalate]
  refine plainClauses_intercalate (by simpa using nonempty) ?_ ?_
  · exact List.forall_mem_map.mpr fun entry member => (plain entry member).comma
  · exact List.forall_mem_map.mpr fun entry member => (plain entry member).trimmed

/-- A clause that is accepted has a colon, which is no blank. -/
theorem trim_ne_nil_of_clause {options : CompileOptions} {declaration clause : String}
    {entry : String × Operand} (member : clause ∈ plainClauses declaration)
    (read : readClause options clause = .ok entry) : Text.trim declaration.toList ≠ [] := by
  have colon : ':' ∈ clause.toList := by
    rw [← entryText_of_readClause read]
    simp [entryText]
  rw [ne_eq, Text.trim_eq_nil_iff]
  intro blank
  exact absurd (blank ':' ((isInfix_of_mem_plainClauses member).subset colon)) (by decide)

theorem trim_ne_nil_of_plain {options : CompileOptions} {spec : Spec}
    (nonempty : spec.entries ≠ []) (plain : ∀ entry ∈ spec.entries, PlainEntry options entry) :
    Text.trim spec.text.toList ≠ [] := by
  obtain ⟨entry, member⟩ := List.exists_mem_of_ne_nil _ nonempty
  have clause : entryText entry ∈ plainClauses spec.text := by
    rw [plainClauses_of_plain nonempty plain]
    exact List.mem_map_of_mem member
  exact trim_ne_nil_of_clause clause (plain entry member).read

theorem compile_text_of_plain {options : CompileOptions} {spec : Spec}
    (nonempty : spec.entries ≠ []) (distinct : spec.names.Nodup)
    (plain : ∀ entry ∈ spec.entries, PlainEntry options entry) :
    compile options spec.text = .ok spec := by
  have read : (plainClauses spec.text).mapM (readClause options) = .ok spec.entries := by
    rw [plainClauses_of_plain nonempty plain, mapM_eq_ok, List.map_map]
    exact List.map_congr_left fun entry member => (plain entry member).read
  exact compile_eq_ok.mpr
    ⟨trim_ne_nil_of_plain nonempty plain, spec.entries, read, Spec.insertAll_entries distinct⟩

theorem plainEntry_of_mem {options : CompileOptions} {declaration : String} {spec : Spec}
    (h : compile options declaration = .ok spec) {entry : String × Operand}
    (member : entry ∈ spec.entries) : PlainEntry options entry := by
  obtain ⟨clause, read⟩ := exists_clause_of_mem h member
  exact ⟨comma_not_mem_of_mem_plainClauses clause, strip_of_mem_plainClauses clause, read⟩

theorem plainClauses_text {options : CompileOptions} {declaration : String} {spec : Spec}
    (h : compile options declaration = .ok spec) :
    plainClauses spec.text = spec.entries.map entryText :=
  plainClauses_of_plain (entries_ne_nil h) fun _ => plainEntry_of_mem h

theorem trim_text_ne_nil {options : CompileOptions} {declaration : String} {spec : Spec}
    (h : compile options declaration = .ok spec) : Text.trim spec.text.toList ≠ [] :=
  trim_ne_nil_of_plain (entries_ne_nil h) fun _ => plainEntry_of_mem h

/-- Compiling the normal form gives the specification back, legacy readings included, so normal forms
stay as they are. -/
theorem compile_text {options : CompileOptions} {declaration : String} {spec : Spec}
    (h : compile options declaration = .ok spec) :
    compile options spec.text = .ok spec ∧ normalize options spec.text = .ok spec.text := by
  -- Every clause of the normal form was read before, and to the entry it is the text of.
  have read : (plainClauses spec.text).mapM (readClause options) = .ok spec.entries := by
    rw [plainClauses_text h, mapM_eq_ok, List.map_map]
    exact List.map_congr_left fun entry member => (exists_clause_of_mem h member).2
  have again : compile options spec.text = .ok spec :=
    compile_eq_ok.mpr ⟨trim_text_ne_nil h, spec.entries, read,
      Spec.insertAll_entries (nodup_names_of_compile h)⟩
  refine ⟨again, ?_⟩
  rw [normalize, again]
  rfl

/-- A name given twice, a name left empty, bars before and after a `#`, and a legacy reading. -/
def crowdedSpec : Spec :=
  ⟨[("model", .model ["m#n|g-"] (some ⟨some "m", ["n"], [⟨"g", .filter, .model⟩]⟩)),
    ("value", .dataBound ⟨some "x|y", ["z", "", "u v"], [⟨"f", .formatter, .dom⟩]⟩),
    ("", .dataBound ⟨some "a", ["b#c"], []⟩)]⟩

theorem compile_text_crowded :
    compile ⟨true⟩ " model:a , value:x|y#z++u v|+f ,model:m#n|g-,:a#b#c" = .ok crowdedSpec ∧
      compile ⟨true⟩ crowdedSpec.text = .ok crowdedSpec ∧
      normalize ⟨true⟩ crowdedSpec.text = .ok crowdedSpec.text := by
  have compiled :
      compile ⟨true⟩ " model:a , value:x|y#z++u v|+f ,model:m#n|g-,:a#b#c" = .ok crowdedSpec := by
    decide +kernel
  exact ⟨compiled, compile_text compiled⟩

end DataBind
