import DataBind.Proofs.Yaml.BlockLexing
import DataBind.Yaml.Document

/-!
# Trees as nodes

The tokens of a tree are read as its node, in block style and in flow style, by induction over the tree.
The node has a scalar for each text, in a style that the writer chose, and neither anchors nor aliases, so
that settling them changes nothing.
-/

namespace DataBind.Yaml

namespace Tree

mutual

/-- The node that a tree is written as, given the style of each text. -/
def node {ρ : Type} (style : String → ScalarStyle) : Tree → Node ρ
  | text value => .scalar .bare (style value) value
  | sequence items => .sequence .bare (itemNodes style items)
  | mapping pairs => .mapping .bare (pairNodes style pairs)

def itemNodes {ρ : Type} (style : String → ScalarStyle) : List Tree → List (Node ρ)
  | [] => []
  | item :: rest => item.node style :: itemNodes style rest

def pairNodes {ρ : Type} (style : String → ScalarStyle) : List (String × Tree) → List (Node ρ × Node ρ)
  | [] => []
  | (key, value) :: rest => (.scalar .bare (style key) key, value.node style) :: pairNodes style rest

end

theorem itemNodes_eq_map {ρ : Type} (style : String → ScalarStyle) (items : List Tree) :
    itemNodes (ρ := ρ) style items = items.map (node style) := by
  induction items with
  | nil => rfl
  | cons item rest ih => rw [itemNodes, ih, List.map_cons]

theorem pairNodes_eq_map {ρ : Type} (style : String → ScalarStyle) (pairs : List (String × Tree)) :
    pairNodes (ρ := ρ) style pairs =
      pairs.map fun pair => (.scalar .bare (style pair.1) pair.1, pair.2.node style) := by
  induction pairs with
  | nil => rfl
  | cons pair rest ih => rw [pairNodes, ih, List.map_cons]

/-! ### Block style -/

theorem not_begins_value (simpleKey : Bool) (tree : Tree) (rest : List Token) :
    begins (tree.tokens simpleKey ++ rest) [.key, .value, .blockEnd] = false := by
  match tree with
  | text value | sequence [] | mapping [] | mapping (pair :: pairs) => rfl
  | sequence (item :: items) => cases simpleKey <;> rfl

theorem not_begins_item (tree : Tree) (rest : List Token) :
    begins (tree.tokens false ++ rest) [.blockEntry, .blockEnd] = false ∧
      begins (tree.tokens false ++ rest) [.blockEntry, .key, .value, .blockEnd] = false := by
  cases tree with
  | text value => exact ⟨rfl, rfl⟩
  | sequence items => cases items <;> exact ⟨rfl, rfl⟩
  | mapping pairs => cases pairs <;> exact ⟨rfl, rfl⟩

variable {handles : TagHandles} {fuel : Nat} {rest : List Token}

/-- A sequence that has no end of its own ends at another token than an entry. -/
def EndsItems (rest : List Token) : Prop :=
  ∀ token ∈ rest.head?, token ≠ .blockEntry

theorem plainItems?_end (ends : EndsItems rest) : plainItems? handles (fuel + 1) rest = some ([], rest) := by
  cases rest with
  | nil => rfl
  | cons token rest =>
    have other := ends token rfl
    cases token with
    | blockEntry => exact absurd rfl other
    | _ => rfl

theorem node?_blockStart {place : Place} (block : place ≠ .flow) (tokens : List Token) :
    node? handles (fuel + 1) place (.blockSequenceStart :: tokens) =
        (blockItems? handles fuel tokens).map (fun (items, rest) => (.sequence .bare items, rest)) ∧
      node? handles (fuel + 1) place (.blockMappingStart :: tokens) =
        (blockPairs? handles fuel tokens).map fun (pairs, rest) => (.mapping .bare pairs, rest) := by
  cases place with
  | flow => exact absurd rfl block
  | block | blockPair => exact ⟨rfl, rfl⟩

mutual

theorem node?_tokens (tree : Tree) (simpleKey : Bool) (place : Place) (fuel : Nat) (rest : List Token)
    (block : place ≠ .flow) (pair : simpleKey = true → place = .blockPair ∧ EndsItems rest)
    (enough : 3 * (tree.tokens simpleKey).length + 2 ≤ fuel) :
    node? handles fuel place (tree.tokens simpleKey ++ rest) = some (tree.node textStyle, rest) := by
  obtain ⟨fuel, rfl⟩ := Nat.exists_eq_add_of_le' (Nat.le_trans (Nat.le_add_left 1 _) enough)
  match tree with
  | text value => rfl
  | sequence [] =>
    obtain ⟨fuel, rfl⟩ := Nat.exists_eq_add_of_le' (show 1 ≤ fuel by omega)
    rfl
  | mapping [] =>
    obtain ⟨fuel, rfl⟩ := Nat.exists_eq_add_of_le' (show 1 ≤ fuel by omega)
    rfl
  | sequence (item :: items) =>
    rw [tokens] at enough ⊢
    cases simpleKey with
    | true =>
      obtain ⟨rfl, ends⟩ := pair rfl
      have read := plainItems?_itemTokens (item :: items) fuel rest ends (by simpa using enough)
      have entry : node? handles (fuel + 1) .blockPair (itemTokens (item :: items) ++ rest) =
          (plainItems? handles fuel (itemTokens (item :: items) ++ rest)).map
            fun (items, rest) => (.sequence .bare items, rest) := rfl
      rw [if_pos rfl, entry, read]
      rfl
    | false =>
      have read := blockItems?_itemTokens (item :: items) fuel rest (by simp at enough; omega)
      rw [if_neg Bool.false_ne_true, List.cons_append, List.cons_append, List.append_assoc, List.singleton_append,
        (node?_blockStart block _).1, read]
      rfl
  | mapping (pair :: pairs) =>
    rw [tokens] at enough ⊢
    have read := blockPairs?_pairTokens (pair :: pairs) fuel rest (by simp at enough; omega)
    rw [List.cons_append, List.cons_append, List.append_assoc, List.singleton_append,
      (node?_blockStart block _).2, read]
    rfl

theorem blockItems?_itemTokens (items : List Tree) (fuel : Nat) (rest : List Token)
    (enough : 3 * (itemTokens items).length + 1 ≤ fuel) :
    blockItems? handles fuel (itemTokens items ++ .blockEnd :: rest) = some (itemNodes textStyle items, rest) := by
  match items with
  | [] =>
    obtain ⟨fuel, rfl⟩ := Nat.exists_eq_add_of_le' (show 1 ≤ fuel by omega)
    rfl
  | item :: items =>
    rw [itemTokens] at enough ⊢
    simp only [List.length_append, List.length_cons] at enough
    obtain ⟨fuel, rfl⟩ := Nat.exists_eq_add_of_le' (show 2 ≤ fuel by omega)
    have first := node?_tokens item false .block fuel (itemTokens items ++ .blockEnd :: rest) (by decide) (by simp)
      (by omega)
    have later := blockItems?_itemTokens items (fuel + 1) rest (by omega)
    rw [List.cons_append, List.cons_append, List.append_assoc, blockItems?, nodeBefore?, (not_begins_item item _).1,
      if_neg Bool.false_ne_true, first]
    simp only [later, Option.map_some, itemNodes]

theorem plainItems?_itemTokens (items : List Tree) (fuel : Nat) (rest : List Token) (ends : EndsItems rest)
    (enough : 3 * (itemTokens items).length + 1 ≤ fuel) :
    plainItems? handles fuel (itemTokens items ++ rest) = some (itemNodes textStyle items, rest) := by
  match items with
  | [] =>
    obtain ⟨fuel, rfl⟩ := Nat.exists_eq_add_of_le' (show 1 ≤ fuel by omega)
    exact plainItems?_end ends
  | item :: items =>
    rw [itemTokens] at enough ⊢
    simp only [List.length_append, List.length_cons] at enough
    obtain ⟨fuel, rfl⟩ := Nat.exists_eq_add_of_le' (show 2 ≤ fuel by omega)
    have first := node?_tokens item false .block fuel (itemTokens items ++ rest) (by decide) (by simp) (by omega)
    have later := plainItems?_itemTokens items (fuel + 1) rest ends (by omega)
    rw [List.cons_append, List.cons_append, List.append_assoc, plainItems?, nodeBefore?, (not_begins_item item _).2,
      if_neg Bool.false_ne_true, first]
    simp only [later, Option.map_some, itemNodes]

theorem blockPairs?_pairTokens (pairs : List (String × Tree)) (fuel : Nat) (rest : List Token)
    (enough : 3 * (pairTokens pairs).length + 1 ≤ fuel) :
    blockPairs? handles fuel (pairTokens pairs ++ .blockEnd :: rest) = some (pairNodes textStyle pairs, rest) := by
  match pairs with
  | [] =>
    obtain ⟨fuel, rfl⟩ := Nat.exists_eq_add_of_le' (show 1 ≤ fuel by omega)
    rfl
  | (key, value) :: pairs =>
    rw [pairTokens] at enough ⊢
    simp only [List.length_append, List.length_cons] at enough
    obtain ⟨fuel, rfl⟩ := Nat.exists_eq_add_of_le' (show 3 ≤ fuel by omega)
    have ends : EndsItems (pairTokens pairs ++ .blockEnd :: rest) := by
      cases pairs <;> simp [EndsItems, pairTokens]
    have first := node?_tokens value (isSimpleKey key) .blockPair fuel (pairTokens pairs ++ .blockEnd :: rest)
      (by decide) (fun _ => ⟨rfl, ends⟩) (by omega)
    have later := blockPairs?_pairTokens pairs (fuel + 2) rest (by omega)
    have keyRead (tokens : List Token) : nodeBefore? handles (fuel + 2) .blockPair [.key, .value, .blockEnd]
        (.scalar (textStyle key) key :: tokens) = some (.scalar .bare (textStyle key) key, tokens) := rfl
    have valueRead : valueAfter? handles (fuel + 2) .blockPair [.key, .value, .blockEnd]
        (.value :: (value.tokens (isSimpleKey key) ++ (pairTokens pairs ++ .blockEnd :: rest))) =
          some (value.node textStyle, pairTokens pairs ++ .blockEnd :: rest) := by
      rw [valueAfter?, nodeBefore?, not_begins_value, if_neg Bool.false_ne_true, first]
    simp only [List.cons_append, List.append_assoc]
    rw [blockPairs?, keyRead]
    simp only [valueRead, later, Option.map_some, pairNodes]

end

/-! ### Flow style -/

mutual

/-- The tokens of a tree with all texts in double quotes. -/
def flowTokens : Tree → List Token
  | text value => [.scalar .doubleQuoted value]
  | sequence items => .flowSequenceStart :: flowItemTokens true items
  | mapping pairs => .flowMappingStart :: flowPairTokens true pairs

/-- Items and the closing bracket. All but the first item follow a comma. -/
def flowItemTokens (first : Bool) : List Tree → List Token
  | [] => [.flowSequenceEnd]
  | item :: rest => (if first then [] else [.flowEntry]) ++ item.flowTokens ++ flowItemTokens false rest

def flowPairTokens (first : Bool) : List (String × Tree) → List Token
  | [] => [.flowMappingEnd]
  | (key, value) :: rest =>
    (if first then [] else [.flowEntry]) ++ .key :: .scalar .doubleQuoted key :: .value :: value.flowTokens ++
      flowPairTokens false rest

end

/-- The style of texts in JSON. -/
def jsonStyle (_ : String) : ScalarStyle :=
  .doubleQuoted

theorem length_flowTokens_pos (tree : Tree) : 0 < tree.flowTokens.length := by
  cases tree <;> simp [flowTokens]

theorem not_begins_flowTokens (tree : Tree) (rest : List Token) :
    begins (tree.flowTokens ++ rest) [.flowEntry, .flowMappingEnd] = false := by
  cases tree <;> rfl

/-- An item that is not the last thing in the list is read as a node. -/
theorem flowItems?_begun (item : Tree) (first : Bool) (tokens : List Token) :
    flowItems? handles (fuel + 1) first ((if first then [] else [.flowEntry]) ++ item.flowTokens ++ tokens) =
      match node? handles fuel .flow (item.flowTokens ++ tokens) with
      | none => none
      | some (item, rest) => (flowItems? handles fuel false rest).map fun (items, rest) => (item :: items, rest) := by
  cases first <;> cases item <;> rfl

theorem flowItems?_item {item : Tree} {first : Bool} {tokens : List Token} {items : List (Node String)}
    (read : node? handles fuel .flow (item.flowTokens ++ tokens) = some (item.node jsonStyle, tokens))
    (later : flowItems? handles fuel false tokens = some (items, rest)) :
    flowItems? handles (fuel + 1) first ((if first then [] else [.flowEntry]) ++ item.flowTokens ++ tokens) =
      some (item.node jsonStyle :: items, rest) := by
  rw [flowItems?_begun, read]
  simp only [later, Option.map_some]

/-- Behind a key in quotes its value is read. -/
theorem flowPairs?_begun (key : String) (first : Bool) (tokens : List Token) :
    flowPairs? handles (fuel + 3) first ((if first then [] else [.flowEntry]) ++
        .key :: .scalar .doubleQuoted key :: .value :: tokens) =
      match valueAfter? handles (fuel + 2) .flow [.flowEntry, .flowMappingEnd] (.value :: tokens) with
      | none => none
      | some (value, rest) => (flowPairs? handles (fuel + 2) false rest).map fun (pairs, rest) =>
          ((.scalar .bare .doubleQuoted key, value) :: pairs, rest) := by
  cases first <;> rfl

theorem flowPairs?_pair {key : String} {value : Tree} {first : Bool} {tokens : List Token}
    {pairs : List (Node String × Node String)}
    (read : node? handles fuel .flow (value.flowTokens ++ tokens) = some (value.node jsonStyle, tokens))
    (later : flowPairs? handles (fuel + 2) false tokens = some (pairs, rest)) :
    flowPairs? handles (fuel + 3) first ((if first then [] else [.flowEntry]) ++
        .key :: .scalar .doubleQuoted key :: .value :: value.flowTokens ++ tokens) =
      some ((.scalar .bare (jsonStyle key) key, value.node jsonStyle) :: pairs, rest) := by
  have valueRead : valueAfter? handles (fuel + 2) .flow [.flowEntry, .flowMappingEnd]
      (.value :: (value.flowTokens ++ tokens)) = some (value.node jsonStyle, tokens) := by
    rw [valueAfter?, nodeBefore?, not_begins_flowTokens, if_neg Bool.false_ne_true, read]
  rw [List.append_assoc, List.cons_append, List.cons_append, List.cons_append, flowPairs?_begun, valueRead]
  simp only [later, Option.map_some, jsonStyle]

mutual

theorem node?_flowTokens (tree : Tree) (place : Place) (fuel : Nat) (rest : List Token)
    (enough : 3 * tree.flowTokens.length + 2 ≤ fuel) :
    node? handles fuel place (tree.flowTokens ++ rest) = some (tree.node jsonStyle, rest) := by
  obtain ⟨fuel, rfl⟩ := Nat.exists_eq_add_of_le' (Nat.le_trans (Nat.le_add_left 1 _) enough)
  match tree with
  | text value => rfl
  | sequence items =>
    rw [flowTokens, List.length_cons] at enough
    have read := flowItems?_flowItemTokens items true fuel rest (by omega)
    have start : node? handles (fuel + 1) place ((sequence items).flowTokens ++ rest) =
        (flowItems? handles fuel true (flowItemTokens true items ++ rest)).map
          fun (items, rest) => (.sequence .bare items, rest) := rfl
    rw [start, read]
    rfl
  | mapping pairs =>
    rw [flowTokens, List.length_cons] at enough
    have read := flowPairs?_flowPairTokens pairs true fuel rest (by omega)
    have start : node? handles (fuel + 1) place ((mapping pairs).flowTokens ++ rest) =
        (flowPairs? handles fuel true (flowPairTokens true pairs ++ rest)).map
          fun (pairs, rest) => (.mapping .bare pairs, rest) := rfl
    rw [start, read]
    rfl

theorem flowItems?_flowItemTokens (items : List Tree) (first : Bool) (fuel : Nat) (rest : List Token)
    (enough : 3 * (flowItemTokens first items).length + 1 ≤ fuel) :
    flowItems? handles fuel first (flowItemTokens first items ++ rest) = some (itemNodes jsonStyle items, rest) := by
  obtain ⟨fuel, rfl⟩ := Nat.exists_eq_add_of_le' (Nat.le_trans (Nat.le_add_left 1 _) enough)
  match items with
  | [] => rfl
  | item :: items =>
    rw [flowItemTokens, List.length_append, List.length_append] at enough
    have positive := item.length_flowTokens_pos
    have later := flowItems?_flowItemTokens items false fuel rest (by omega)
    have more : 0 < (flowItemTokens false items).length := by cases items <;> simp [flowItemTokens]
    have read := node?_flowTokens item .flow fuel (flowItemTokens false items ++ rest) (by omega)
    rw [flowItemTokens, List.append_assoc, itemNodes]
    exact flowItems?_item read later

theorem flowPairs?_flowPairTokens (pairs : List (String × Tree)) (first : Bool) (fuel : Nat) (rest : List Token)
    (enough : 3 * (flowPairTokens first pairs).length + 1 ≤ fuel) :
    flowPairs? handles fuel first (flowPairTokens first pairs ++ rest) = some (pairNodes jsonStyle pairs, rest) := by
  match pairs with
  | [] =>
    obtain ⟨fuel, rfl⟩ := Nat.exists_eq_add_of_le' (Nat.le_trans (Nat.le_add_left 1 _) enough)
    rfl
  | (key, value) :: pairs =>
    rw [flowPairTokens, List.length_append, List.length_append, List.length_cons, List.length_cons,
      List.length_cons] at enough
    obtain ⟨fuel, rfl⟩ := Nat.exists_eq_add_of_le' (show 3 ≤ fuel by omega)
    have later := flowPairs?_flowPairTokens pairs false (fuel + 2) rest (by omega)
    have read := node?_flowTokens value .flow fuel (flowPairTokens false pairs ++ rest) (by omega)
    rw [flowPairTokens, List.append_assoc, pairNodes]
    exact flowPairs?_pair read later

end

/-! ### Documents -/

mutual

theorem settle?_node (style : String → ScalarStyle) (anchors : Anchors) :
    ∀ tree : Tree, (tree.node style).settle? anchors = some (tree.node style, anchors)
  | text value => rfl
  | sequence items => by
    have settled := settleItems?_itemNodes style anchors items
    simp only [node, Node.settle?, Properties.settle, Properties.bare, settled, Option.map_some]
  | mapping pairs => by
    have settled := settlePairs?_pairNodes style anchors pairs
    simp only [node, Node.settle?, Properties.settle, Properties.bare, settled, Option.map_some]

theorem settleItems?_itemNodes (style : String → ScalarStyle) (anchors : Anchors) :
    ∀ items : List Tree, settleItems? anchors (itemNodes style items) = some (itemNodes style items, anchors)
  | [] => rfl
  | item :: rest => by
    have first := settle?_node style anchors item
    have later := settleItems?_itemNodes style anchors rest
    simp only [itemNodes, settleItems?, first, later, Option.map_some]

theorem settlePairs?_pairNodes (style : String → ScalarStyle) (anchors : Anchors) :
    ∀ pairs : List (String × Tree),
      settlePairs? anchors (pairNodes style pairs) = some (pairNodes style pairs, anchors)
  | [] => rfl
  | (key, value) :: rest => by
    have first := settle?_node style anchors value
    have later := settlePairs?_pairNodes style anchors rest
    simp only [pairNodes, settlePairs?, Node.settle?, Properties.settle, Properties.bare, first, later,
      Option.map_some]

end

/-- A text whose tokens are the one node of a tree. -/
theorem ofText?_of_node {style : String → ScalarStyle} {tree : Tree} {text : String} {token : Token}
    {tokens : List Token} (lexed : tokens? text.toList = some (token :: tokens))
    (content : (!isDirective token && token != .documentStart) = true)
    (read : node? defaultHandles (3 * (token :: tokens).length + 8) .block (token :: tokens) =
      some (tree.node style, [])) :
    Document.ofText? text = some (.ofNode (tree.node style)) := by
  have documents : documents? (token :: tokens) = some [tree.node style] := by
    rw [documents?, List.length_cons, documentsFrom?]
    simp only [if_true, Bool.true_and, content]
    rw [List.length_cons] at read
    rw [read]
    rfl
  rw [Document.ofText?, lexed]
  simp only [Option.bind_eq_bind, Option.bind_some, documents, settle?_node, Option.pure_def]

theorem ofText?_writeMapping (pair : String × Tree) (pairs : List (String × Tree)) :
    Document.ofText? (writeMapping (pair :: pairs)) = some (.ofNode ((mapping (pair :: pairs)).node textStyle)) := by
  have lexed := tokens?_pairsChars pair pairs
  have read : node? defaultHandles _ .block _ = _ := node?_tokens (mapping (pair :: pairs)) false .block
    (3 * ((mapping (pair :: pairs)).tokens false).length + 8) [] (by decide) (by simp) (by omega)
  rw [List.append_nil] at read
  exact ofText?_of_node ((congrArg tokens? String.toList_ofList).trans lexed) rfl read

end Tree

end DataBind.Yaml
