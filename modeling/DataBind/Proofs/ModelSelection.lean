import DataBind.Proofs.LoweredFields
import DataBind.View.Options

/-!
# Selecting by the name of a model

A selector looks for the name anywhere in the uncompiled text of a declaration. Whatever the declaration
compiles to, its model names stand there as they are, so no element is missed whose model names begin with
the name that is looked for.
-/

namespace DataBind

/-- The declaration compiles, and its model names begin with `name` when they are written in a row. -/
def LeadsWith (options : CompileOptions) (declaration name : String) : Prop :=
  ∃ spec names legacy, compile options declaration = .ok spec ∧
    spec.get? "model" = some (.model names legacy) ∧ name.toList <+: ("+".intercalate names).toList

theorem Text.occursIn_iff {needle cs : List Char} : occursIn needle cs = true ↔ needle <:+: cs := by
  induction cs with
  | nil => rw [occursIn, List.isEmpty_iff, List.infix_nil]
  | cons c cs ih => rw [occursIn, Bool.or_eq_true, ih, List.isPrefixOf_iff_prefix, List.infix_cons_iff]

/-- What a declaration has to contain to be selected. -/
def modelNeedle (name : String) : List Char :=
  ("model:" ++ name).toList

theorem modelNeedle_isPrefix {shorter name : String} (starts : shorter.toList <+: name.toList) :
    modelNeedle shorter <+: modelNeedle name := by
  rw [modelNeedle, modelNeedle, String.toList_append, String.toList_append]
  exact (List.prefix_append_right_inj _).mpr starts

/-! ### What a selector reads -/

section Selectors

variable {bindAttribute name shorter declaration : String} {element : Element}

theorem declaration?_unnamed :
    (Selector.ofOptions ⟨bindAttribute, none⟩).declaration? element = element.attribute? bindAttribute := by
  unfold Selector.declaration? Selector.ofOptions
  dsimp only [Option.map_none]
  cases element.attribute? bindAttribute <;> rfl

theorem declaration?_named :
    (Selector.ofOptions ⟨bindAttribute, some name⟩).declaration? element = some declaration ↔
      element.attribute? bindAttribute = some declaration ∧ modelNeedle name <:+: declaration.toList := by
  unfold Selector.declaration? Selector.ofOptions
  dsimp only [Option.map_some]
  rw [← Text.occursIn_iff]
  cases read : element.attribute? bindAttribute with
  | none => simp
  | some value =>
    dsimp only
    split
    · rename_i occurs
      constructor
      · rintro ⟨⟩
        exact ⟨rfl, occurs⟩
      · exact And.left
    · rename_i missing
      constructor
      · nofun
      · rintro ⟨same, occurs⟩
        cases same
        exact absurd occurs missing

theorem declaration?_shorter (starts : shorter.toList <+: name.toList)
    (selected : (Selector.ofOptions ⟨bindAttribute, some name⟩).declaration? element = some declaration) :
    (Selector.ofOptions ⟨bindAttribute, some shorter⟩).declaration? element = some declaration := by
  obtain ⟨read, occurs⟩ := declaration?_named.mp selected
  have needle : modelNeedle shorter <+: modelNeedle name := modelNeedle_isPrefix starts
  exact declaration?_named.mpr ⟨read, needle.isInfix.trans occurs⟩

end Selectors

/-! ### What a declaration contains -/

/-- The clause of the model entry stands in the declaration as it is written in the normal form. -/
theorem modelNames_isInfix {options : CompileOptions} {declaration : String} {spec : Spec} {names : List String}
    {legacy : Option DataBound} (compiled : compile options declaration = .ok spec)
    (found : spec.get? "model" = some (.model names legacy)) :
    modelNeedle ("+".intercalate names) <:+: declaration.toList := by
  have member : ("model", Operand.model names legacy) ∈ spec.entries := Spec.mem_of_get? found
  obtain ⟨clause, -⟩ := exists_clause_of_mem compiled member
  exact isInfix_of_mem_plainClauses clause

theorem LeadsWith.isInfix {options : CompileOptions} {declaration name : String}
    (leads : LeadsWith options declaration name) : modelNeedle name <:+: declaration.toList := by
  obtain ⟨spec, names, legacy, compiled, found, starts⟩ := leads
  have needle : modelNeedle name <+: modelNeedle ("+".intercalate names) := modelNeedle_isPrefix starts
  exact needle.isInfix.trans (modelNames_isInfix compiled found)

/-- An element is selected by every name that its model names begin with. Looking for the beginning of a name,
or for no name at all, selects the elements that the name selects and reads the same declarations. -/
theorem selects_leading_model (bindAttribute : String) (element : Element) :
    (∀ options declaration name, element.attribute? bindAttribute = some declaration →
      LeadsWith options declaration name →
      (Selector.ofOptions ⟨bindAttribute, some name⟩).selects element = true ∧
        (Selector.ofOptions ⟨bindAttribute, some name⟩).declaration? element = some declaration) ∧
    ∀ name shorter, shorter.toList <+: name.toList →
      (Selector.ofOptions ⟨bindAttribute, some name⟩).selects element = true →
      ∃ declaration, (Selector.ofOptions ⟨bindAttribute, some name⟩).declaration? element = some declaration ∧
        (Selector.ofOptions ⟨bindAttribute, some shorter⟩).declaration? element = some declaration ∧
        (Selector.ofOptions ⟨bindAttribute, none⟩).declaration? element = some declaration := by
  constructor
  · intro options declaration name read leads
    have selected := declaration?_named.mpr ⟨read, leads.isInfix⟩
    exact ⟨Option.isSome_iff_exists.mpr ⟨declaration, selected⟩, selected⟩
  · intro name shorter starts selects
    obtain ⟨declaration, selected⟩ := Option.isSome_iff_exists.mp selects
    obtain ⟨read, -⟩ := declaration?_named.mp selected
    exact ⟨declaration, selected, declaration?_shorter starts selected, declaration?_unnamed.trans read⟩

/-- The second of two model clauses stands, and a blank makes the third an operand of another name. -/
def repeatedModels : String :=
  " value:x ,model:a+b, model:per son+näme|f- ,model :z#w"

def repeatedElement : Element where
  attributes := KeyMap.ofList [("class", "wide"), ("my-bind", repeatedModels)]

def repeatedModelsSpec : Spec :=
  ⟨[("value", .dataBound ⟨none, ["x"], []⟩),
    ("model", .model ["per son", "näme|f-"] (some ⟨none, ["per son", "näme"], [⟨"f", .filter, .model⟩]⟩)),
    ("model ", .dataBound ⟨some "z", ["w"], []⟩)]⟩

theorem selects_leading_model_repeated :
    LeadsWith ⟨true⟩ repeatedModels "per son+nä" ∧ "per".toList <+: "per son+nä".toList ∧
      (Selector.ofOptions ⟨"my-bind", some "per son+nä"⟩).selects repeatedElement = true ∧
      (Selector.ofOptions ⟨"my-bind", some "per"⟩).declaration? repeatedElement = some repeatedModels ∧
      (Selector.ofOptions ⟨"my-bind", none⟩).declaration? repeatedElement = some repeatedModels := by
  have read : repeatedElement.attribute? "my-bind" = some repeatedModels := by decide +kernel
  have leads : LeadsWith ⟨true⟩ repeatedModels "per son+nä" :=
    ⟨repeatedModelsSpec, ["per son", "näme|f-"], _, by decide +kernel, rfl, by decide +kernel⟩
  have starts : "per".toList <+: "per son+nä".toList := by decide +kernel
  obtain ⟨missesNone, sameText⟩ := selects_leading_model "my-bind" repeatedElement
  obtain ⟨selects, selected⟩ := missesNone ⟨true⟩ repeatedModels "per son+nä" read leads
  obtain ⟨declaration, found, byShorter, byNone⟩ := sameText "per son+nä" "per" starts selects
  obtain rfl : repeatedModels = declaration := Option.some.inj (selected.symm.trans found)
  exact ⟨leads, starts, selects, byShorter, byNone⟩

end DataBind
