import DataBind.Proofs.StandingClauses
import DataBind.Spec.Calls

/-!
# Specifications under construction

A call that is refused leaves the specification as it was; every other call inserts one entry. So after any
calls the specification is a dictionary of the entries they gave, ordered by the first insertion of each name.
-/

namespace DataBind

/-- What a specification is after these insertions, in this order. -/
structure OrderedDictionary (inserted : List (String × Operand)) (spec : Spec) : Prop where
  distinct : spec.names.Nodup
  order : spec.names = (inserted.map (·.1)).eraseDups
  get? : ∀ name, spec.get? name = KeyMap.lastUnder name inserted
  size : spec.size = (inserted.map (·.1)).toFinset.card

theorem orderedDictionary_insertAll (inserted : List (String × Operand)) :
    OrderedDictionary inserted (Spec.empty.insertAll inserted) := by
  have start : Spec.empty.names.Nodup := List.nodup_nil
  have distinct : (Spec.empty.insertAll inserted).names.Nodup := Spec.nodup_names_insertAll start inserted
  have order := Spec.names_insertAll_empty inserted
  constructor
  case distinct => exact distinct
  case order => exact order
  case get? =>
    intro name
    have absent : Spec.empty.get? name = none := rfl
    rw [Spec.get?_insertAll_entries, absent, Option.or_none]
  case size =>
    have listed : (Spec.empty.insertAll inserted).names.toFinset = (inserted.map (·.1)).toFinset := by
      ext name
      rw [List.mem_toFinset, List.mem_toFinset, order, List.mem_eraseDups]
    rw [← listed, List.toFinset_card_of_nodup distinct, Spec.names, List.length_map]
    rfl

namespace SpecCall

/-- The entry that a call inserts, if it inserts one. -/
def insertion? (options : CompileOptions) : SpecCall → Option (String × Operand)
  | read clause => (readClause options clause).toOption
  | insert name operand => some (name, operand)

/-- What a call answers and leaves of a specification. -/
inductive Performs (options : CompileOptions) (spec : Spec) : SpecCall → Answer → Spec → Prop
  | read {clause name : String} {operand : Operand} (reads : readClause options clause = .ok (name, operand)) :
      Performs options spec (.read clause) (.ok none) (spec.insert name operand)
  | refused {clause : String} {cause : DeclarationError} (refuses : readClause options clause = .error cause) :
      Performs options spec (.read clause) (.error cause) spec
  | inserted (name : String) (operand : Operand) :
      Performs options spec (.insert name operand) (.ok (spec.get? name)) (spec.insert name operand)

end SpecCall

/-! ### One call -/

theorem Spec.exchangeEntry_fst (name : String) (operand : Operand) (entries : List (String × Operand)) :
    (exchangeEntry name operand entries).1 = (entries.find? fun entry => entry.1 == name).map (·.2) := by
  induction entries with
  | nil => rfl
  | cons head rest ih =>
    obtain ⟨other, old⟩ := head
    by_cases same : other = name
    · simp [exchangeEntry, same]
    · simp [exchangeEntry, same, ih]

theorem Spec.exchange_eq (spec : Spec) (name : String) (operand : Operand) :
    spec.exchange name operand = (spec.get? name, spec.insert name operand) :=
  Prod.ext (exchangeEntry_fst name operand spec.entries) rfl

theorem SpecM.run_insert (name : String) (operand : Operand) (spec : Spec) :
    (SpecM.insert name operand).run.run spec = (.ok (spec.get? name), spec.insert name operand) := by
  show (Except.ok (spec.exchange name operand).1, (spec.exchange name operand).2) = _
  rw [Spec.exchange_eq]

/-- A clause is read in place as it is read into a copy, since all that can be refused is looked at before the
specification is changed. -/
theorem SpecM.run_read (options : CompileOptions) (clause : String) (spec : Spec) :
    (SpecM.read options clause).run.run spec =
      match spec.addClause options clause with
      | .ok next => (.ok (), next)
      | .error cause => (.error cause, spec) := by
  unfold SpecM.read Spec.addClause
  match Text.pieces ':' clause with
  | [] => rfl
  | [_] => rfl
  | [name, payload] =>
    dsimp only
    cases Operand.parse options name payload with
    | error cause => rfl
    | ok operand => rfl
  | _ :: _ :: _ :: _ => rfl

namespace SpecCall

theorem performs_perform (options : CompileOptions) (call : SpecCall) (spec : Spec) :
    Performs options spec call (call.perform options spec).1 (call.perform options spec).2 := by
  cases call with
  | read clause =>
    have ran := SpecM.run_read options clause spec
    rw [addClause_eq] at ran
    simp only [perform, answer, ExceptT.run_bind, StateT.run_bind]
    cases reads : readClause options clause with
    | error cause =>
      rw [reads] at ran
      rw [ran]
      exact .refused reads
    | ok entry =>
      rw [reads] at ran
      rw [ran]
      exact .read reads
  | insert name operand =>
    rw [perform, answer, SpecM.run_insert]
    exact .inserted name operand

/-- A call leaves what inserting its entry leaves, if it has one. -/
theorem Performs.next_eq {options : CompileOptions} {spec next : Spec} {call : SpecCall} {answer : Answer}
    (performs : Performs options spec call answer next) :
    next = spec.insertAll (call.insertion? options).toList := by
  cases performs with
  | read reads => simp [insertion?, reads, Spec.insertAll, Except.toOption]
  | refused refuses => simp [insertion?, refuses, Spec.insertAll, Except.toOption]
  | inserted name operand => rfl

/-! ### All calls -/

theorem performAll_snd (options : CompileOptions) (calls : List SpecCall) (spec : Spec) :
    (performAll options calls spec).2 = spec.insertAll (calls.filterMap (insertion? options)) := by
  induction calls generalizing spec with
  | nil => rfl
  | cons call calls ih =>
    have first := (performs_perform options call spec).next_eq
    show (performAll options calls (call.perform options spec).2).2 = _
    rw [ih, first, ← Spec.insertAll_append]
    cases entry : call.insertion? options <;> simp [entry]

theorem performAll_append (options : CompileOptions) (before after : List SpecCall) (spec : Spec) :
    performAll options (before ++ after) spec =
      ((performAll options before spec).1 ++ (performAll options after (performAll options before spec).2).1,
        (performAll options after (performAll options before spec).2).2) := by
  induction before generalizing spec with
  | nil => rfl
  | cons call before ih =>
    simp only [List.cons_append, performAll, ih]

theorem length_performAll (options : CompileOptions) (calls : List SpecCall) (spec : Spec) :
    (performAll options calls spec).1.length = calls.length := by
  induction calls generalizing spec with
  | nil => rfl
  | cons call calls ih => exact congrArg (· + 1) (ih _)

theorem getElem?_performAll (options : CompileOptions) (before : List SpecCall) (call : SpecCall)
    (after : List SpecCall) (spec : Spec) :
    (performAll options (before ++ call :: after) spec).1[before.length]? =
      some (call.perform options (performAll options before spec).2).1 := by
  have answered : (performAll options before spec).1.length = before.length := length_performAll options before spec
  rw [performAll_append, List.getElem?_append_right answered.le, answered, Nat.sub_self]
  rfl

/-- After any calls the specification is a dictionary of the entries that were inserted. Each call answers and
leaves what it may, of the specification that the calls before it have left. -/
theorem performAll_orderedDictionary (options : CompileOptions) (calls : List SpecCall) :
    let outcome := performAll options calls Spec.empty
    OrderedDictionary (calls.filterMap (insertion? options)) outcome.2 ∧
      outcome.1.length = calls.length ∧
      ∀ before call after, calls = before ++ call :: after →
        ∃ answer, outcome.1[before.length]? = some answer ∧
          Performs options (performAll options before Spec.empty).2 call answer
            (performAll options (before ++ [call]) Spec.empty).2 := by
  intro outcome
  refine ⟨?_, length_performAll options calls Spec.empty, ?_⟩
  · have inserted : outcome.2 = Spec.empty.insertAll _ := performAll_snd options calls Spec.empty
    rw [inserted]
    apply orderedDictionary_insertAll
  · rintro before call after rfl
    have left : (performAll options (before ++ [call]) Spec.empty).2 =
        (call.perform options (performAll options before Spec.empty).2).2 := by
      rw [performAll_append]
      rfl
    refine ⟨_, getElem?_performAll options before call after Spec.empty, ?_⟩
    rw [left]
    apply performs_perform

example :
    performAll {} [.insert "value" (.events []), .read "value:a|b", .read "class:c", .insert "value" (.model [] none)]
        Spec.empty =
      ([.ok none, .error (.badFilter "b"), .ok none, .ok (some (.events []))],
        ⟨[("value", .model [] none), ("class", .dataBound ⟨none, ["c"], []⟩)]⟩) := by
  decide +kernel

end SpecCall

end DataBind
