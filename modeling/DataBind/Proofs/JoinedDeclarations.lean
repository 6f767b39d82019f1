import DataBind.Proofs.NormalForm

/-!
# Joining declarations

Two declarations that are joined by a comma have the clauses of the first and then those of the second.
So they compile one after the other: the first error of the two stands, and of two specifications the
entries of the second are inserted into the first.
-/

namespace DataBind

theorem plainClauses_append (first rest : String) :
    plainClauses (first ++ "," ++ rest) = plainClauses first ++ plainClauses rest := by
  have pieces := Text.pieces_append ',' first rest
  rw [plainClauses, plainClauses, plainClauses, ← List.map_append, ← pieces]
  rfl

theorem trim_append_ne_nil {first : String} (shown : Text.trim first.toList ≠ []) (rest : String) :
    Text.trim (first ++ "," ++ rest).toList ≠ [] := by
  rw [ne_eq, Text.trim_eq_nil_iff] at shown ⊢
  intro blank
  exact shown fun c member => blank c (by simp [member])

theorem compile_append (options : CompileOptions) {first rest : String}
    (shown : Text.trim first.toList ≠ []) (shownToo : Text.trim rest.toList ≠ []) :
    compile options (first ++ "," ++ rest) = do
      let spec ← compile options first
      let more ← compile options rest
      return spec.insertAll more.entries := by
  rw [compile_eq (trim_append_ne_nil shown rest), compile_eq shown, compile_eq shownToo,
    plainClauses_append, List.mapM_append]
  cases (plainClauses first).mapM (readClause options) with
  | error cause => rfl
  | ok entries =>
    cases (plainClauses rest).mapM (readClause options) with
    | error cause => rfl
    | ok more =>
      -- The second declaration has settled its own repeated names before it is inserted.
      have start : Spec.empty.names.Nodup := List.nodup_nil
      have settled := Spec.insertAll_entries_insertAll start (Spec.empty.insertAll entries) more
      have together : Spec.empty.insertAll (entries ++ more) =
          (Spec.empty.insertAll entries).insertAll (Spec.empty.insertAll more).entries := by
        rw [settled, Spec.insertAll_append]
        rfl
      exact congrArg Except.ok together

/-- An error of the first declaration stands, then one of the second. Otherwise the operands of the
second replace those of the same name where they are, and the others follow in their order. -/
theorem compile_joined (options : CompileOptions) (first rest : String)
    (shown : ¬∀ c ∈ first.toList, Text.isBlank c) (shownToo : ¬∀ c ∈ rest.toList, Text.isBlank c) :
    (∀ cause, compile options first = .error cause →
      compile options (first ++ "," ++ rest) = .error cause) ∧
    (∀ spec cause, compile options first = .ok spec → compile options rest = .error cause →
      compile options (first ++ "," ++ rest) = .error cause) ∧
    ∀ spec more, compile options first = .ok spec → compile options rest = .ok more →
      compile options (first ++ "," ++ rest) = .ok (spec.insertAll more.entries) ∧
      (spec.insertAll more.entries).names = spec.names ++ more.names.filter (· ∉ spec.names) ∧
      ∀ name, (spec.insertAll more.entries).get? name = (more.get? name).or (spec.get? name) := by
  have joined := compile_append options (mt Text.trim_eq_nil_iff.mp shown)
    (mt Text.trim_eq_nil_iff.mp shownToo)
  refine ⟨?_, ?_, ?_⟩
  · intro cause refused
    rw [joined, refused]
    rfl
  · intro spec cause compiled refused
    rw [joined, compiled, refused]
    rfl
  · intro spec more compiled compiledToo
    have distinct : more.names.Nodup := nodup_names_of_compile compiledToo
    refine ⟨?_, Spec.names_insertAll distinct spec, Spec.get?_insertAll distinct spec⟩
    rw [joined, compiled, compiledToo]
    rfl

def frontSpec : Spec :=
  ⟨[("value", .dataBound ⟨none, ["a"], []⟩),
    ("class", .dataBound ⟨none, ["b"], [⟨"f", .formatter, .dom⟩]⟩)]⟩

/-- Names `class` again and gave it twice itself. -/
def backSpec : Spec :=
  ⟨[("class", .dataBound ⟨some "m", ["d"], []⟩), ("events", .events ["blur"])]⟩

theorem compile_joined_seam :
    compile {} "value:a ,class:b|+f" = .ok frontSpec ∧
      compile {} " class:c, events:blur,class:m#d " = .ok backSpec ∧
      compile {} ("value:a ,class:b|+f" ++ "," ++ " class:c, events:blur,class:m#d ") =
        .ok ⟨[("value", .dataBound ⟨none, ["a"], []⟩), ("class", .dataBound ⟨some "m", ["d"], []⟩),
          ("events", .events ["blur"])]⟩ ∧
      compile {} ("value:a,class" ++ "," ++ "value:b|f") =
        .error (.malformed "class" "expected exactly one ':' separator, found 0") ∧
      compile {} ("value:a ,class:b|+f" ++ "," ++ ",class:b") =
        .error (.malformed "" "expected exactly one ':' separator, found 0") := by
  have front : compile {} "value:a ,class:b|+f" = .ok frontSpec := by decide +kernel
  have back : compile {} " class:c, events:blur,class:m#d " = .ok backSpec := by decide +kernel
  have noColon : compile {} "value:a,class" =
      .error (.malformed "class" "expected exactly one ':' separator, found 0") := by
    decide +kernel
  have noClause : compile {} ",class:b" =
      .error (.malformed "" "expected exactly one ':' separator, found 0") := by
    decide +kernel
  have shown (text : String) (nonblank : Text.trim text.toList ≠ []) :
      ¬∀ c ∈ text.toList, Text.isBlank c :=
    mt Text.trim_eq_nil_iff.mpr nonblank
  have frontShown := shown "value:a ,class:b|+f" (by decide +kernel)
  have both := (compile_joined {} _ _ frontShown (shown _ (by decide +kernel))).2.2 _ _ front back
  have refused := (compile_joined {} _ "value:b|f" (shown _ (by decide +kernel))
    (shown _ (by decide +kernel))).1 _ noColon
  have refusedToo := (compile_joined {} _ _ frontShown (shown _ (by decide +kernel))).2.1 _ _ front
    noClause
  exact ⟨front, back, both.1, refused, refusedToo⟩

end DataBind
