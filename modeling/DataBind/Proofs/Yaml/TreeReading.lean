import DataBind.Proofs.KeyedEntries
import DataBind.Proofs.Yaml.TreeNodes
import DataBind.View.Yaml

/-!
# Views read from trees

A view is read from the node of its tree as it was, in whatever styles the texts are written, if none of
them reads as null there.
-/

namespace DataBind

namespace Yaml

/-! ### Readings that follow no alias -/

/-- The reading gives the value in any document and follows no alias. -/
def Reads {α : Type} (reading : Reading α) (value : α) : Prop :=
  ∀ document left, reading document left = some (value, left)

variable {α β : Type}

theorem Reads.pure (value : α) : Reads (pure value) value :=
  fun _ _ => rfl

theorem Reads.bind {reading : Reading α} {value : α} {next : α → Reading β} {result : β}
    (first : Reads reading value) (later : Reads (next value) result) :
    Reads (reading >>= next) result := by
  intro document left
  have step : (reading >>= next) document left =
      (reading document left).bind fun outcome => next outcome.1 document outcome.2 := rfl
  rw [step, first document left]
  exact later document left

theorem Reads.mapM {γ δ : Type} {f : δ → Reading β} {g : γ → β} {node : γ → δ} {xs : List γ}
    (each : ∀ x ∈ xs, Reads (f (node x)) (g x)) : Reads ((xs.map node).mapM f) (xs.map g) := by
  induction xs with
  | nil => exact .pure []
  | cons x xs ih =>
    obtain ⟨first, later⟩ := List.forall_mem_cons.mp each
    rw [List.map_cons, List.mapM_cons]
    exact first.bind ((ih later).bind (.pure _))

theorem reads_follow {node : Node Nat} (solid : ∀ number, node ≠ .alias number) :
    Reads node.follow node := by
  intro document left
  cases node with
  | «alias» number => exact absurd rfl (solid number)
  | _ => rfl

theorem reads_text (properties : Properties Nat) (style : ScalarStyle) (text : String) :
    Reads (Node.readText (.scalar properties style text)) text :=
  (reads_follow fun _ same => by cases same).bind (.pure text)

theorem reads_items (properties : Properties Nat) (items : List (Node Nat)) :
    Reads (Node.readItems (.sequence properties items)) items :=
  (reads_follow fun _ same => by cases same).bind (.pure items)

theorem reads_pairs (properties : Properties Nat) (pairs : List (Node Nat × Node Nat)) :
    Reads (Node.readPairs (.mapping properties pairs)) pairs :=
  (reads_follow fun _ same => by cases same).bind (.pure pairs)

theorem reads_optional {style : ScalarStyle} {text : String} (shown : isPlainNull style text = false) :
    Reads (Node.readOptional Node.readText (.scalar .bare style text)) (some text) := by
  refine (reads_follow fun _ same => by cases same).bind ?_
  simp only [Properties.bare, shown, Bool.false_eq_true, if_false]
  exact (reads_text _ style text).bind (.pure _)

theorem reads_field {fields : List (String × Node Nat)} {name : String} {node : Node Nat} {default value : α}
    {read : Node Nat → Reading α} (given : fields.lookup name = some node) (reads : Reads (read node) value) :
    Reads (readField fields name default read) value := by
  rw [readField, given]
  exact reads

theorem reads_absent_field {fields : List (String × Node Nat)} {name : String} {default : α}
    {read : Node Nat → Reading α} (absent : fields.lookup name = none) :
    Reads (readField fields name default read) default := by
  rw [readField, absent]
  exact .pure default

section Trees

variable {style : String → ScalarStyle}

theorem reads_foldlM_fields {names : List String} {pairs : List (String × Tree)}
    (known : ∀ pair ∈ pairs, pair.1 ∈ names) (distinct : (pairs.map (·.1)).Nodup)
    {fields : List (String × Node Nat)} (fresh : ∀ pair ∈ pairs, fields.lookup pair.1 = none) :
    Reads ((Tree.pairNodes style pairs).foldlM (fun (fields : List (String × Node Nat)) (key, value) => do
        let name ← key.readText
        if !names.contains name then return fields
        else if (fields.lookup name).isSome then failure
        else return (name, value) :: fields) fields)
      ((pairs.map fun pair => (pair.1, pair.2.node style)).reverse ++ fields) := by
  induction pairs generalizing fields with
  | nil => exact .pure fields
  | cons pair pairs ih =>
    obtain ⟨key, value⟩ := pair
    obtain ⟨knownFirst, knownLater⟩ := List.forall_mem_cons.mp known
    obtain ⟨freshFirst, freshLater⟩ := List.forall_mem_cons.mp fresh
    obtain ⟨absent, distinct⟩ := List.nodup_cons.mp distinct
    have listed : names.contains key = true := List.contains_iff_mem.mpr knownFirst
    rw [Tree.pairNodes, List.foldlM_cons, List.map_cons, List.reverse_cons, List.append_assoc,
      List.singleton_append]
    refine Reads.bind ((reads_text _ _ key).bind ?_) (ih knownLater distinct fun other member => ?_)
    · simp only [listed, freshFirst, Bool.not_true, Bool.false_eq_true, if_false, Option.isSome_none]
      exact .pure _
    · have different : other.1 ≠ key := by
        rintro same
        exact absent (List.mem_map.mpr ⟨other, member, same⟩)
      rw [List.lookup_cons, beq_false_of_ne different]
      exact freshLater other member

/-- Fields with distinct known names are collected, the last one first. -/
theorem reads_fields {names : List String} {pairs : List (String × Tree)}
    (known : ∀ pair ∈ pairs, pair.1 ∈ names) (distinct : (pairs.map (·.1)).Nodup) :
    Reads (Node.readFields names ((Tree.mapping pairs).node style))
      (pairs.map fun pair => (pair.1, pair.2.node style)).reverse := by
  refine (reads_pairs .bare (Tree.pairNodes style pairs)).bind ?_
  rw [← List.append_nil (List.reverse _)]
  exact reads_foldlM_fields known distinct fun _ _ => rfl

theorem reads_optional_field (shows : ∀ text, isPlainNull (style text) text = false) (value : Option String)
    {fields : List (String × Node Nat)} {name : String}
    (given : fields.lookup name = value.map fun text => .scalar .bare (style text) text) :
    Reads (readField fields name none (Node.readOptional Node.readText)) value := by
  cases value with
  | none => exact reads_absent_field given
  | some text => exact reads_field given (reads_optional (shows text))

theorem reads_texts (style : String → ScalarStyle) (map : KeyMap String) :
    Reads (Node.readTexts ((Tree.mapping (map.entries.map fun entry => (entry.1, .text entry.2))).node style))
      map := by
  refine (reads_pairs .bare _).bind ?_
  rw [Tree.pairNodes_eq_map, List.map_map]
  have texts (entry : String × String) (_ : entry ∈ map.entries) : Reads (do
      return (← Node.readText (.scalar .bare (style entry.1) entry.1),
        ← Node.readText (.scalar .bare (style entry.2) entry.2))) entry :=
    (reads_text _ _ entry.1).bind ((reads_text _ _ entry.2).bind (.pure _))
  refine (Reads.mapM texts).bind ?_
  rw [List.map_id', map.ofList_entries]
  exact .pure map

end Trees

end Yaml

open Yaml (Node ScalarStyle Tree isPlainNull Reads reads_fields reads_field reads_optional_field reads_texts reads_items)

variable {style : String → ScalarStyle}

theorem Element.reads (shows : ∀ text, isPlainNull (style text) text = false) (element : Element) :
    Reads (Element.read (element.toTree.node style)) element := by
  obtain ⟨tag, id, attributes⟩ := element
  refine (reads_fields ?_ ?_).bind ?_
  · cases tag <;> cases id <;> simp [Tree.field?]
  · cases tag <;> cases id <;> simp [Tree.field?]
  · refine Reads.bind (reads_optional_field shows tag ?_) ?_
    · cases tag <;> cases id <;> rfl
    refine Reads.bind (reads_optional_field shows id ?_) ?_
    · cases tag <;> cases id <;> rfl
    refine Reads.bind (reads_field ?_ (reads_texts style attributes)) (.pure _)
    cases tag <;> cases id <;> rfl

def View.fields (view : View) : List (String × Tree) :=
  Tree.field? "model" view.model ++ [("elements", .sequence (view.elements.map Element.toTree))]

theorem View.reads (shows : ∀ text, isPlainNull (style text) text = false) (view : View) :
    Reads (View.read ((Tree.mapping view.fields).node style)) view := by
  obtain ⟨model, elements⟩ := view
  have nodes : Reads (Node.readItems ((Tree.sequence (elements.map Element.toTree)).node style))
      (elements.map fun element => element.toTree.node style) := by
    rw [Yaml.Tree.node, Tree.itemNodes_eq_map, List.map_map]
    exact reads_items _ _
  have each : Reads ((elements.map fun element => element.toTree.node style).mapM Element.read) (elements.map id) :=
    Reads.mapM fun element _ => element.reads shows
  rw [List.map_id] at each
  refine (reads_fields ?_ ?_).bind ?_
  · cases model <;> simp [View.fields, Tree.field?]
  · cases model <;> simp [View.fields, Tree.field?]
  · refine Reads.bind (reads_optional_field shows model ?_) ?_
    · cases model <;> rfl
    refine Reads.bind (reads_field ?_ (nodes.bind each)) (.pure _)
    cases model <;> rfl

/-- What a text is read as whose document is a view. -/
theorem View.ofYaml_eq (shows : ∀ text, isPlainNull (style text) text = false) {view : View} {text : String}
    (document : Yaml.Document.ofText? text = some (.ofNode ((Tree.mapping view.fields).node style))) :
    View.ofYaml text = .ok view := by
  have read : Yaml.read? View.read text = some view := by
    rw [Yaml.read?, document]
    simp only [Option.bind_eq_bind, Option.bind_some]
    have root : (Yaml.Document.ofNode ((Tree.mapping view.fields).node style)).root =
      (Tree.mapping view.fields).node style := rfl
    rw [root, view.reads shows]
    rfl
  rw [View.ofYaml, read]

theorem not_isPlainNull_textStyle (text : String) : isPlainNull (Yaml.textStyle text) text = false := by
  cases null : text == "" || Yaml.PlainValue.isNullWord text with
  | false => rw [isPlainNull, null, Bool.and_false]
  | true =>
    have other : Yaml.readsAsOther text = true := by
      rw [Yaml.readsAsOther, Yaml.PlainValue.ofText, if_pos null]
      rfl
    have quoted : Yaml.textStyle text ≠ .plain := by
      unfold Yaml.textStyle Yaml.quotedStyle
      simp only [other, Bool.not_true, Bool.false_and, Bool.false_eq_true, if_false]
      split <;> split <;> decide
    rw [isPlainNull, beq_false_of_ne quoted, Bool.false_and]

/-- Any view is read back as it was written in block style. -/
theorem View.ofYaml_toYaml (view : View) : View.ofYaml view.toYaml = .ok view := by
  obtain ⟨pair, pairs, same⟩ : ∃ pair pairs, view.fields = pair :: pairs :=
    List.exists_cons_of_ne_nil (by simp [View.fields])
  refine View.ofYaml_eq not_isPlainNull_textStyle ?_
  rw [same, ← Tree.ofText?_writeMapping, ← same]
  rfl

end DataBind
