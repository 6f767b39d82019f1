import DataBind.Proofs.Acceptance
import DataBind.Proofs.LoweredFields
import DataBind.Proofs.Reordered

/-!
# The order of clauses

The clauses of a declaration may be put in any order that leaves those of one operand as they are. The names
then stand in another order, but each has the same payload, so the binding that comes out differs in the
order of its attribute bindings at most.
-/

namespace DataBind

variable {options : CompileOptions} {declaration : String} {spec spec' : Spec} {clauses : List String}

/-- The entry of a clause that is accepted. -/
def entryOf? (options : CompileOptions) (clause : String) : Option (String × Operand) :=
  (readClause options clause).toOption

theorem entryOf?_eq_some {clause : String} {entry : String × Operand} :
    entryOf? options clause = some entry ↔ readClause options clause = .ok entry := by
  rw [entryOf?]
  cases readClause options clause <;> simp [Except.toOption]

theorem entries_of_mapM {entries : List (String × Operand)}
    (read : clauses.mapM (readClause options) = .ok entries) :
    entries = clauses.filterMap (entryOf? options) := by
  have each : clauses.map (entryOf? options) = entries.map some := by
    have accepted := congrArg (List.map Except.toOption) (mapM_eq_ok.mp read)
    rw [List.map_map, List.map_map] at accepted
    exact accepted
  calc
    entries = (entries.map some).filterMap id := by simp
    _ = clauses.filterMap (entryOf? options) := by rw [← each, List.filterMap_map, Function.id_comp]

theorem operands_of_mapM {entries : List (String × Operand)}
    (read : clauses.mapM (readClause options) = .ok entries) :
    entries.map (·.1) = clauses.map clauseOperand := by
  obtain ⟨rfl, named⟩ := clauses_of_mapM read
  rw [List.map_map]
  exact (List.map_congr_left named).symm

/-! ### Any order -/

/-- Clauses that are accepted are accepted in any order. -/
theorem compile_intercalate_of_perm (h : compile options declaration = .ok spec)
    (perm : (plainClauses declaration).Perm clauses) :
    ∃ entries, clauses.mapM (readClause options) = .ok entries ∧
      compile options (",".intercalate clauses) = .ok (Spec.empty.insertAll entries) := by
  obtain ⟨-, accepted, read, rfl⟩ := compile_eq_ok.mp h
  have nonempty : clauses ≠ [] := by
    rintro rfl
    exact Text.pieces_ne_nil ',' declaration (List.map_eq_nil_iff.mp perm.eq_nil)
  have plain : plainClauses (",".intercalate clauses) = clauses := by
    apply plainClauses_intercalate nonempty
    · intro clause member
      exact comma_not_mem_of_mem_plainClauses (perm.mem_iff.mpr member)
    · intro clause member
      exact strip_of_mem_plainClauses (perm.mem_iff.mpr member)
  have good : ∀ clause ∈ clauses, ∃ entry, readClause options clause = .ok entry :=
    fun clause member => exists_mapM_eq_ok.mp ⟨accepted, read⟩ clause (perm.mem_iff.mpr member)
  obtain ⟨entries, readToo⟩ := exists_mapM_eq_ok.mpr good
  have shown : Text.trim (",".intercalate clauses).toList ≠ [] := by
    obtain ⟨clause, member⟩ := List.exists_mem_of_ne_nil clauses nonempty
    obtain ⟨entry, first⟩ := good clause member
    exact trim_ne_nil_of_clause (plain.symm ▸ member) first
  exact ⟨entries, readToo, compile_eq_ok.mpr ⟨shown, entries, plain.symm ▸ readToo, rfl⟩⟩

/-- Of the clauses of one operand the last one stands in either order. -/
theorem get?_of_reordered {others : List String} {entries entries' : List (String × Operand)}
    (reordered : Reordered (fun clause => some (clauseOperand clause)) clauses others)
    (read : clauses.mapM (readClause options) = .ok entries)
    (read' : others.mapM (readClause options) = .ok entries') (name : String) :
    (Spec.empty.insertAll entries').get? name = (Spec.empty.insertAll entries).get? name := by
  have keyed : ∀ clause entry, entryOf? options clause = some entry →
      ∃ key, some (clauseOperand clause) = some key ∧ id key = entry.1 :=
    fun clause entry accepted => ⟨_, rfl, clauseOperand_of_readClause (entryOf?_eq_some.mp accepted)⟩
  have last := reordered.lastUnder Function.injective_id keyed name
  rw [Spec.get?_insertAll_entries, Spec.get?_insertAll_entries, entries_of_mapM read,
    entries_of_mapM read', last]

/-- Specifications with the same look-ups have the same entries, in whatever order. -/
theorem Spec.perm_of_get? (distinct : spec.names.Nodup) (distinct' : spec'.names.Nodup)
    (same : ∀ name, spec'.get? name = spec.get? name) : spec'.entries.Perm spec.entries := by
  refine (List.perm_ext_iff_of_nodup (.of_map _ distinct') (.of_map _ distinct)).mpr fun entry => ?_
  constructor
  · intro member
    exact Spec.mem_of_get? ((same entry.1).symm.trans (Spec.get?_of_mem distinct' member))
  · intro member
    exact Spec.mem_of_get? ((same entry.1).trans (Spec.get?_of_mem distinct member))

/-- The clauses of a declaration that compiles, in any order that leaves those of one operand as they are,
compile to the same payloads, and these lower to the same binding but for the order of its attributes. -/
theorem compile_reordered (h : compile options declaration = .ok spec)
    (reordered : Reordered (fun clause => some (clauseOperand clause)) (plainClauses declaration) clauses) :
    ∃ spec', compile options (",".intercalate clauses) = .ok spec' ∧
      (∀ name, name ∈ spec'.names ↔ name ∈ spec.names) ∧
      (∀ name, spec'.get? name = spec.get? name) ∧
      spec'.lower.observe = spec.lower.observe ∧
      (∀ role, spec'.lower.callback? role = spec.lower.callback? role) ∧
      spec'.lower.types = spec.lower.types ∧
      spec'.lower.attributes.Perm spec.lower.attributes ∧
      spec'.lower.attributes.map (·.name) =
        (clauses.map clauseOperand).eraseDups.filter (· ∈ attributeOperands) := by
  obtain ⟨entries', read', compiled⟩ := compile_intercalate_of_perm h reordered.perm
  have distinct : spec.names.Nodup := nodup_names_of_compile h
  have distinct' : (Spec.empty.insertAll entries').names.Nodup := nodup_names_of_compile compiled
  have same : ∀ name, (Spec.empty.insertAll entries').get? name = spec.get? name := by
    obtain ⟨-, entries, read, rfl⟩ := compile_eq_ok.mp h
    exact get?_of_reordered reordered read read'
  have perm : (Spec.empty.insertAll entries').entries.Perm spec.entries :=
    Spec.perm_of_get? distinct distinct' same
  have value : (Spec.empty.insertAll entries').valueData? = spec.valueData? := by
    rw [Spec.valueData?, Spec.valueData?, same]
  refine ⟨_, compiled, fun name => (perm.map (·.1)).mem_iff, same, ?_, fun role => ?_, ?_, ?_, ?_⟩
  · rw [Spec.lower_observe distinct', Spec.lower_observe distinct, value]
  · rw [Spec.lower_callback? distinct', Spec.lower_callback? distinct, value]
  · rw [lower_types compiled, lower_types h, same]
  · rw [(entriesLowered_lower _).attributes, (entriesLowered_lower spec).attributes]
    exact perm.filterMap _
  · rw [lower_attributes_names compiled, Spec.names_insertAll_empty, operands_of_mapM read']

/-- One operand is named twice. -/
def clausesInOrder : String :=
  "class:k|-c ,value:x|f+, events:e,value:y+z|+g|+k,disabled:m#d"

def clausesMoved : List String :=
  ["disabled:m#d", "value:x|f+", "events:e", "class:k|-c", "value:y+z|+g|+k"]

def specInOrder : Spec :=
  ⟨[("class", .dataBound ⟨none, ["k"], [⟨"c", .filter, .dom⟩]⟩),
    ("value", .dataBound ⟨none, ["y", "z"], [⟨"g", .formatter, .dom⟩, ⟨"k", .formatter, .dom⟩]⟩),
    ("events", .events ["e"]), ("disabled", .dataBound ⟨some "m", ["d"], []⟩)]⟩

theorem compile_reordered_moved :
    compile {} clausesInOrder = .ok specInOrder ∧
      Reordered (fun clause => some (clauseOperand clause)) (plainClauses clausesInOrder) clausesMoved ∧
      ∃ spec', compile {} (",".intercalate clausesMoved) = .ok spec' ∧
        spec'.get? "value" = specInOrder.get? "value" ∧
        spec'.lower.observe = some (.many ["y", "z"]) ∧
        spec'.lower.callback? .onGet = some "k" ∧
        spec'.lower.types = some ["e"] ∧
        spec'.lower.attributes.Perm specInOrder.lower.attributes ∧
        spec'.lower.attributes.map (·.name) = ["disabled", "class"] := by
  have compiled : compile {} clausesInOrder = .ok specInOrder := by decide +kernel
  have clauses : plainClauses clausesInOrder =
      ["class:k|-c", "value:x|f+", "events:e", "value:y+z|+g|+k", "disabled:m#d"] := by
    decide +kernel
  have reordered : Reordered (fun clause => some (clauseOperand clause)) (plainClauses clausesInOrder)
      clausesMoved := by
    rw [clauses]
    decide +kernel
  obtain ⟨spec', moved, -, same, observe, callbacks, types, attributes, names⟩ :=
    compile_reordered compiled reordered
  refine ⟨compiled, reordered, spec', moved, same "value", observe, callbacks .onGet, types, attributes, ?_⟩
  rw [names]
  decide +kernel

end DataBind
