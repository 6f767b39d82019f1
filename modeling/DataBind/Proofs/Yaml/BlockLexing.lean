import DataBind.Proofs.Yaml.WrittenKeys

/-!
# Trees in block style as tokens

A tree in block style is read as the tokens of its texts and collections, by induction over the tree. An item
or a value begins behind its indicator and ends at what follows its last line, where the blocks are closed
that the next line is not in.
-/

namespace DataBind.Yaml

namespace Tree

mutual

/-- The tokens of a value or an item. A sequence under a simple key has no start and end of its own. -/
def tokens (simpleKey : Bool) : Tree → List Token
  | text value => [.scalar (textStyle value) value]
  | sequence [] => [.flowSequenceStart, .flowSequenceEnd]
  | mapping [] => [.flowMappingStart, .flowMappingEnd]
  | sequence (item :: rest) =>
    if simpleKey then itemTokens (item :: rest)
    else .blockSequenceStart :: itemTokens (item :: rest) ++ [.blockEnd]
  | mapping (pair :: rest) => .blockMappingStart :: pairTokens (pair :: rest) ++ [.blockEnd]

def itemTokens : List Tree → List Token
  | [] => []
  | item :: rest => .blockEntry :: item.tokens false ++ itemTokens rest

def pairTokens : List (String × Tree) → List Token
  | [] => []
  | (key, value) :: rest =>
    .key :: .scalar (textStyle key) key :: .value :: value.tokens (isSimpleKey key) ++ pairTokens rest

end

theorem endLine_eq (cs : List Char) : endLine cs = cs ++ lineEnd cs := by
  rw [endLine, lineEnd]
  split
  · rw [List.append_nil]
  · rfl

theorem exists_nodeChars (indent : Nat) (simpleKey : Bool) (tree : Tree) :
    ∃ c rest, nodeChars indent simpleKey tree = c :: rest ∧ isGap c = true := by
  match tree with
  | text value | sequence [] | mapping [] => exact ⟨' ', _, by rw [nodeChars], by decide⟩
  | sequence (item :: rest) | mapping (pair :: rest) =>
    rw [nodeChars]
    cases simpleKey
    · exact ⟨' ', _, rfl, by decide⟩
    · exact ⟨'\n', _, rfl, by decide⟩

theorem itemsChars_cons_cons (indent : Nat) (item next : Tree) (rest : List Tree) :
    itemsChars indent (item :: next :: rest) =
      '-' :: nodeChars indent false item ++ spaces indent ++ itemsChars indent (next :: rest) := by
  rw [itemsChars]
  simp

theorem pairsChars_cons_cons (indent : Nat) (key : String) (value : Tree) (next : String × Tree)
    (rest : List (String × Tree)) :
    pairsChars indent ((key, value) :: next :: rest) =
      keyChars indent key ++ nodeChars indent (isSimpleKey key) value ++ spaces indent ++
        pairsChars indent (next :: rest) := by
  rw [pairsChars]
  simp

theorem begun_itemsChars (indent : Nat) (item : Tree) (rest : List Tree) (tail : List Char) :
    Lexer.Begun (itemsChars indent (item :: rest) ++ tail) := by
  cases rest with
  | nil =>
    rw [itemsChars]
    rintro _ ⟨⟩
    decide
  | cons next rest =>
    rw [itemsChars_cons_cons]
    rintro _ ⟨⟩
    decide

theorem begun_keyChars (indent : Nat) (key : String) (tail : List Char) :
    Lexer.Begun (keyChars indent key ++ tail) := by
  rw [keyChars]
  split
  · rw [List.append_assoc]
    exact (writtenAs (indent + 2) key).begun _
  · rintro _ ⟨⟩
    decide

theorem begun_pairsChars (indent : Nat) (pair : String × Tree) (rest : List (String × Tree)) (tail : List Char) :
    Lexer.Begun (pairsChars indent (pair :: rest) ++ tail) := by
  obtain ⟨key, value⟩ := pair
  cases rest with
  | nil =>
    rw [pairsChars, List.append_assoc]
    exact begun_keyChars indent key _
  | cons next rest =>
    rw [pairsChars_cons_cons, List.append_assoc, List.append_assoc, List.append_assoc]
    exact begun_keyChars indent key _

theorem isSimpleKey_iff {key : String} (simple : isSimpleKey key = true) :
    (∀ c ∈ key.toList, isBreak c = false) ∧ Cursor.byteCount key.toList ≤ 128 := by
  simp only [isSimpleKey, Bool.and_eq_true, Bool.not_eq_true', decide_eq_true_eq] at simple
  rw [Cursor.byteCount_toList]
  exact ⟨by simpa [isMultiline] using simple.1, simple.2⟩

end Tree

open Yaml.Tree

namespace Lexer

variable {cursor : Cursor} {indent n : Nat} {outer : Int} {indents indents' : List Int} {keyAllowed : Bool}
  {produced produced' : List Token} {next : List Char}

theorem reaches_text (indents : List Int) (keyAllowed : Bool) (produced : List Token) (value : String)
    (rest : cursor.rest = ' ' :: endLine (writtenText (indent + 2) value) ++ (spaces n ++ next)) (begun : Begun next)
    (outside : n ≤ indent) (inside : indent < cursor.column) :
    ∃ after, after.rest = next ∧ after.column = n ∧
      Reaches (inBlock cursor indent indents keyAllowed none produced)
        ((inBlock after indent indents true none (.scalar (textStyle value) value :: produced)).closeBlocks n) := by
  have as := writtenAs (indent + 2) value
  rw [endLine_eq, List.cons_append] at rest
  have begun' : Begun (writtenText (indent + 2) value ++ lineEnd (writtenText (indent + 2) value) ++
      (spaces n ++ next)) := by
    rw [List.append_assoc]
    exact as.begun _
  have column : indent < (cursor.past [' ']).column := Nat.lt_succ_of_lt inside
  have behind : (cursor.past [' ']).rest = _ := Cursor.rest_past (show cursor.rest = [' '] ++ _ from rest)
  obtain ⟨after, restAfter, columnAfter, goes⟩ := goes_text as behind begun outside column
  rw [String.ofList_toList] at goes
  exact ⟨after, restAfter, columnAfter, reaches_space rest begun' (by omega) goes⟩

/-- The lexer behind the bracket that opens a collection within blocks. -/
def behindOpen (mapping : Bool) (cursor : Cursor) (indent : Int) (indents : List Int) (keyMark : Option KeyMark)
    (produced : List Token) : Lexer :=
  ⟨cursor.past [openMark mapping], 1, indent, indents, true, none, [keyMark], openToken mapping :: produced⟩

/-- The bracket itself does not make the place of a key a stale one. -/
theorem liveMark?_behindOpen (mapping keyAllowed : Bool) (rest : cursor.rest = [openMark mapping] ++ next)
    (outer : Int) (number : Nat) :
    liveMark? (cursor.past [openMark mapping]) (if keyAllowed then some (markHere cursor outer number) else none) =
      some (if keyAllowed then some (markHere cursor outer number) else none) := by
  cases keyAllowed with
  | false => rfl
  | true =>
    refine liveMark?_of_near (Cursor.line_past (List.forall_mem_singleton.mpr (isBreak_openMark mapping))) ?_
    have size : Cursor.byteCount [openMark mapping] = 1 := by cases mapping <;> rfl
    rw [Cursor.index_past rest, size]
    exact Nat.add_le_add_left (by decide) _

theorem step?_open (mapping : Bool) (rest : cursor.rest = openMark mapping :: next) :
    (inBlock cursor outer indents keyAllowed none produced).step? (openMark mapping) =
      some (behindOpen mapping cursor outer indents
        (if keyAllowed then some (markHere cursor outer produced.length) else none) produced) := by
  rw [step?_openMark mapping rest, openFlow?, markKey?_inBlock, behindOpen,
    Cursor.past_unbroken (isBreak_openMark mapping)]
  rfl

theorem settle?_behindOpen {mapping : Bool} {keyMark : Option KeyMark} {tail : List Char}
    (rest : (cursor.past [openMark mapping]).rest = closeMark mapping :: tail)
    (live : liveMark? (cursor.past [openMark mapping]) keyMark = some keyMark) (outer : Int) (indents : List Int)
    (produced : List Token) :
    (behindOpen mapping cursor outer indents keyMark produced).settle? =
      some (behindOpen mapping cursor outer indents keyMark produced) := by
  have begun : Begun (closeMark mapping :: tail) := by
    rintro _ ⟨⟩
    cases mapping <;> decide
  refine (settle?_spaces (n := 0) rest begun rfl ?_).trans rfl
  have live' : liveMark? ((cursor.past [openMark mapping]).past (spaces 0)) keyMark = some keyMark := live
  rw [behindOpen, List.mapM_cons, live']
  rfl

theorem step?_behindOpen {mapping : Bool} {tail : List Char}
    (rest : (cursor.past [openMark mapping]).rest = closeMark mapping :: tail) (outer : Int) (indents : List Int)
    (keyMark : Option KeyMark) (produced : List Token) :
    (behindOpen mapping cursor outer indents keyMark produced).step? (closeMark mapping) =
      some (inBlock ((cursor.past [openMark mapping]).past [closeMark mapping]) outer indents false keyMark
        (closeToken mapping :: openToken mapping :: produced)) := by
  rw [step?_closeMark mapping rest, closeFlow?, Cursor.past_unbroken (isBreak_closeMark mapping)]
  rfl

/-- An empty collection up to what follows on the next line. -/
theorem goes_empty (mapping : Bool) (produced : List Token)
    (rest : cursor.rest = openMark mapping :: closeMark mapping :: '\n' :: (spaces n ++ next)) (begun : Begun next)
    (inside : indent < cursor.column) :
    ∃ after, after.rest = next ∧ after.column = n ∧
      Goes (inBlock cursor indent indents keyAllowed none produced)
        ((inBlock after indent indents true none (closeToken mapping :: openToken mapping :: produced)).closeBlocks
          n) := by
  have here : cursor.rest = [openMark mapping] ++ _ := rest
  have between := Cursor.rest_past here
  have here' : (cursor.past [openMark mapping]).rest = [closeMark mapping] ++ ('\n' :: spaces n ++ next) := between
  have bygone : ∀ mark ∈ (if keyAllowed then some (markHere cursor indent produced.length) else none),
      mark.required = false ∧ mark.line ≤ ((cursor.past [openMark mapping]).past [closeMark mapping]).line :=
    fun mark member => by
      obtain ⟨optional, line⟩ := markHere_bygone inside mark member
      rw [line, ← Cursor.past_append]
      exact ⟨optional, Cursor.line_le_past cursor _⟩
  have live := liveMark?_behindOpen mapping keyAllowed here indent produced.length
  obtain ⟨after, restAfter, columnAfter, reaches⟩ := reaches_lineEnd (Cursor.rest_past here') begun bygone
  have closes := reaches.goes between (step?_behindOpen between indent indents _ produced)
    (Cursor.length_past_lt here' (by simp))
  have first : Reaches _ _ := ⟨_, settle?_behindOpen between live indent indents produced, Nat.le_refl _, closes⟩
  exact ⟨after, restAfter, columnAfter,
    first.goes rest (step?_open mapping rest) (Cursor.length_past_lt here (by simp))⟩

theorem reaches_empty (mapping : Bool) (produced : List Token)
    (rest : cursor.rest = ' ' :: openMark mapping :: closeMark mapping :: '\n' :: (spaces n ++ next))
    (begun : Begun next) (inside : indent < cursor.column) :
    ∃ after, after.rest = next ∧ after.column = n ∧
      Reaches (inBlock cursor indent indents keyAllowed none produced)
        ((inBlock after indent indents true none (closeToken mapping :: openToken mapping :: produced)).closeBlocks
          n) := by
  have atOpen := Cursor.rest_past (show cursor.rest = [' '] ++ _ from rest)
  have begunOpen : Begun (openMark mapping :: closeMark mapping :: '\n' :: (spaces n ++ next)) := by
    rintro _ ⟨⟩
    cases mapping <;> decide
  have column : indent < (cursor.past [' ']).column := Nat.lt_succ_of_lt inside
  obtain ⟨after, restAfter, columnAfter, goes⟩ := goes_empty mapping produced atOpen begun column
  exact ⟨after, restAfter, columnAfter, reaches_space rest begunOpen (by omega) goes⟩

/-- A key with its indicators, up to the value. -/
theorem exists_behind_key (key : String) {tail : List Char} {d : Char}
    (opens : Opens indent .blockMappingStart outer indents produced indents' produced')
    (rest : cursor.rest = keyChars indent key ++ d :: tail) (gap : isGap d = true) (column : cursor.column = indent) :
    ∃ behind : Cursor, behind.rest = d :: tail ∧ indent < behind.column ∧
      (isSimpleKey key = false → behind.column = indent + 1) ∧
      ∀ target, Reaches (inBlock behind indent indents' (!isSimpleKey key) none
          (.value :: .scalar (textStyle key) key :: .key :: produced')) target →
        Goes (inBlock cursor outer indents true none produced) target := by
  subst column
  cases simple : isSimpleKey key with
  | true =>
    obtain ⟨unbroken, short⟩ := isSimpleKey_iff simple
    have as := writtenAs (cursor.column + 2) key
    rw [keyChars, if_pos simple, List.append_assoc] at rest
    have first : Next (inBlock cursor outer indents true none produced) _ :=
      next_text as (by omega) unbroken short rest gap opens.indent_le
    have behind := Cursor.rest_past rest
    have step : (inBlock (cursor.past (writtenText (cursor.column + 2) key)) outer indents false
        (some (markHere cursor outer produced.length))
          (.scalar (textStyle key) (String.ofList key.toList) :: produced)).step? ':' = some _ :=
      step?_markedValue opens rfl behind gap
    rw [String.ofList_toList] at first step
    have column : cursor.column < ((cursor.past (writtenText (cursor.column + 2) key)).past [':']).column := by
      rw [Cursor.column_past (List.forall_mem_singleton.mpr rfl), Cursor.column_past (as.oneLine unbroken).1]
      exact Nat.lt_succ_of_le (Nat.le_add_right _ _)
    refine ⟨_, Cursor.rest_past behind, column, by simp, fun target reaches => ?_⟩
    exact .head first (reaches.goes behind step (Cursor.length_past_lt behind (by simp)))
  | false =>
    rw [keyChars, if_neg (by simp [simple])] at rest
    have here : cursor.rest = '?' :: ' ' :: (endLine (writtenText (cursor.column + 2) key) ++
        (spaces cursor.column ++ ':' :: d :: tail)) := by
      simpa using rest
    have step : (inBlock cursor outer indents true none produced).step? '?' = some _ :=
      step?_key opens here (by decide)
    have behind := Cursor.rest_past (show cursor.rest = ['?'] ++ _ from here)
    have begun : Begun (':' :: d :: tail) := by
      rintro _ ⟨⟩
      decide
    obtain ⟨after, restAfter, columnAfter, reaches⟩ := reaches_text indents' true (.key :: produced') key behind
      begun (Nat.le_refl _) (Nat.lt_succ_self _)
    rw [closeBlocks_inside (Int.le_refl _)] at reaches
    have valueStep : (inBlock after after.column indents' true none
        (.scalar (textStyle key) key :: .key :: produced')).step? ':' = some _ := step?_value restAfter gap
    rw [columnAfter] at valueStep
    have here' : after.rest = [':'] ++ d :: tail := restAfter
    have column : (after.past [':']).column = cursor.column + 1 := by
      rw [Cursor.column_past (List.forall_mem_singleton.mpr rfl), columnAfter]
      rfl
    refine ⟨after.past [':'], Cursor.rest_past here', by omega, fun _ => column, fun target value => ?_⟩
    have goes := value.goes restAfter valueStep (Cursor.length_past_lt here' (by simp))
    exact (reaches.trans goes).goes here step
      (Cursor.length_past_lt (show cursor.rest = ['?'] ++ _ from here) (by simp))

theorem step?_nodeChars {item : Tree}
    (opens : Opens cursor.column .blockSequenceStart outer indents produced indents' produced')
    (rest : cursor.rest = '-' :: (nodeChars cursor.column false item ++ next)) :
    (inBlock cursor outer indents true none produced).step? '-' =
      some (inBlock (cursor.past ['-']) cursor.column indents' true none (.blockEntry :: produced')) := by
  obtain ⟨d, chars, same, gap⟩ := exists_nodeChars cursor.column false item
  rw [same] at rest
  exact step?_blockEntry opens rest gap

/-- A collection begins on the line of its indicator, or on a line of its own under a simple key. -/
theorem reaches_collection {simpleKey : Bool} {column : Nat} (produced : List Token)
    (rest : cursor.rest = (if simpleKey then '\n' :: spaces column else [' ']) ++ next) (begun : Begun next)
    (inside : indent < cursor.column) (further : indent ≤ column)
    (behind : simpleKey = false → cursor.column + 1 = column) :
    ∃ first : Cursor, first.rest = next ∧ first.column = column ∧
      Reaches (inBlock cursor indent indents (!simpleKey) none produced)
        (inBlock first indent indents true none produced) := by
  cases simpleKey with
  | false =>
    rw [if_neg Bool.false_ne_true] at rest
    have column' : (cursor.past [' ']).column = column := by
      rw [Cursor.column_past (List.forall_mem_singleton.mpr rfl)]
      exact behind rfl
    exact ⟨cursor.past [' '], Cursor.rest_past rest, column', reaches_space rest begun (by omega) .refl⟩
  | true =>
    rw [if_pos rfl] at rest
    obtain ⟨first, restFirst, columnFirst, reaches⟩ : ∃ first, first.rest = next ∧ first.column = column ∧
        Reaches (inBlock cursor indent indents false none produced)
          ((inBlock first indent indents true none produced).closeBlocks column) :=
      reaches_lineEnd rest begun (by simp)
    rw [closeBlocks_inside (by omega)] at reaches
    exact ⟨first, restFirst, columnFirst, reaches⟩

mutual

/-- A value or an item, from behind its indicator on. -/
theorem reaches_node (tree : Tree) (simpleKey : Bool) (indent n : Nat) (indents : List Int) (produced : List Token)
    (cursor : Cursor) (next : List Char)
    (rest : cursor.rest = nodeChars indent simpleKey tree ++ (spaces n ++ next)) (begun : Begun next)
    (outside : n ≤ indent) (inside : indent < cursor.column)
    (behind : simpleKey = false → cursor.column = indent + 1) :
    ∃ after, after.rest = next ∧ after.column = n ∧
      Reaches (inBlock cursor indent indents (!simpleKey) none produced)
        ((inBlock after indent indents true none ((tree.tokens simpleKey).reverse ++ produced)).closeBlocks n) := by
  match tree with
  | .text value =>
    rw [nodeChars] at rest
    rw [tokens]
    exact reaches_text indents _ produced value rest begun outside inside
  | .sequence [] =>
    rw [nodeChars] at rest
    rw [tokens]
    exact reaches_empty false produced rest begun inside
  | .mapping [] =>
    rw [nodeChars] at rest
    rw [tokens]
    exact reaches_empty true produced rest begun inside
  | .sequence (item :: items) =>
    rw [nodeChars] at rest
    rw [tokens]
    cases simpleKey with
    | true =>
      have rest' : cursor.rest = (if true then '\n' :: spaces indent else [' ']) ++
          (itemsChars indent (item :: items) ++ (spaces n ++ next)) := by
        simpa using rest
      obtain ⟨first, restFirst, columnFirst, reaches⟩ := reaches_collection produced rest'
        (begun_itemsChars indent item items _) inside (Nat.le_refl _) (by simp)
      obtain ⟨after, restAfter, columnAfter, goes⟩ := goes_items (item :: items) (by simp) indent n indent indents
        indents produced produced first next .here restFirst begun outside columnFirst
      exact ⟨after, restAfter, columnAfter, reaches.trans goes⟩
    | false =>
      have rest' : cursor.rest = (if false then '\n' :: spaces (indent + 2) else [' ']) ++
          (itemsChars (indent + 2) (item :: items) ++ (spaces n ++ next)) := by
        simpa using rest
      obtain ⟨first, restFirst, columnFirst, reaches⟩ := reaches_collection produced rest'
        (begun_itemsChars (indent + 2) item items _) inside (Nat.le_add_right _ _) (by simpa using behind)
      obtain ⟨after, restAfter, columnAfter, goes⟩ := goes_items (item :: items) (by simp) (indent + 2) n indent
        indents (indent :: indents) produced (.blockSequenceStart :: produced) first next (.further (by omega))
        restFirst begun (by omega) columnFirst
      rw [closeBlocks_outside (by omega)] at goes
      refine ⟨after, restAfter, columnAfter, ?_⟩
      simpa using reaches.trans goes
  | .mapping (pair :: pairs) =>
    rw [nodeChars] at rest
    rw [tokens]
    have rest' : cursor.rest = (if simpleKey then '\n' :: spaces (indent + 2) else [' ']) ++
        (pairsChars (indent + 2) (pair :: pairs) ++ (spaces n ++ next)) := by
      cases simpleKey <;> simpa using rest
    obtain ⟨first, restFirst, columnFirst, reaches⟩ := reaches_collection produced rest'
      (begun_pairsChars (indent + 2) pair pairs _) inside (Nat.le_add_right _ _)
      fun simple => by rw [behind simple]
    obtain ⟨after, restAfter, columnAfter, goes⟩ := goes_pairs (pair :: pairs) (by simp) (indent + 2) n indent
      indents (indent :: indents) produced (.blockMappingStart :: produced) first next (.further (by omega))
      restFirst begun (by omega) columnFirst
    rw [closeBlocks_outside (by omega)] at goes
    refine ⟨after, restAfter, columnAfter, ?_⟩
    simpa using reaches.trans goes

theorem goes_items (items : List Tree) (nonempty : items ≠ []) (indent n : Nat) (outer : Int)
    (indents indents' : List Int) (produced produced' : List Token) (cursor : Cursor) (next : List Char)
    (opens : Opens indent .blockSequenceStart outer indents produced indents' produced')
    (rest : cursor.rest = itemsChars indent items ++ (spaces n ++ next)) (begun : Begun next)
    (outside : n ≤ indent) (column : cursor.column = indent) :
    ∃ after, after.rest = next ∧ after.column = n ∧
      Goes (inBlock cursor outer indents true none produced)
        ((inBlock after indent indents' true none ((itemTokens items).reverse ++ produced')).closeBlocks n) := by
  subst column
  match items with
  | [] => exact absurd rfl nonempty
  | [item] =>
    rw [itemsChars, List.cons_append] at rest
    rw [itemTokens, itemTokens, List.append_nil]
    have step : (inBlock cursor outer indents true none produced).step? '-' = some _ :=
      step?_nodeChars opens rest
    have here : cursor.rest = ['-'] ++ _ := rest
    obtain ⟨after, restAfter, columnAfter, reaches⟩ := reaches_node item false cursor.column n indents'
      (.blockEntry :: produced') (cursor.past ['-']) next (Cursor.rest_past here) begun outside
      (Nat.lt_succ_self _) fun _ => rfl
    refine ⟨after, restAfter, columnAfter, ?_⟩
    simpa using reaches.goes rest step (Cursor.length_past_lt here (by simp))
  | item :: second :: items =>
    rw [itemsChars_cons_cons, List.append_assoc, List.append_assoc, List.cons_append] at rest
    rw [itemTokens]
    have step : (inBlock cursor outer indents true none produced).step? '-' = some _ :=
      step?_nodeChars opens rest
    have here : cursor.rest = ['-'] ++ _ := rest
    obtain ⟨between, restBetween, columnBetween, reaches⟩ := reaches_node item false cursor.column cursor.column
      indents' (.blockEntry :: produced') (cursor.past ['-']) _ (Cursor.rest_past here)
      (begun_itemsChars cursor.column second items _) (Nat.le_refl _) (Nat.lt_succ_self _) fun _ => rfl
    rw [closeBlocks_inside (Int.le_refl _)] at reaches
    obtain ⟨after, restAfter, columnAfter, goes⟩ := goes_items (second :: items) (by simp) cursor.column n
      cursor.column indents' indents' _ _ between next .here restBetween begun outside columnBetween
    refine ⟨after, restAfter, columnAfter, ?_⟩
    simpa using (reaches.trans goes).goes rest step (Cursor.length_past_lt here (by simp))

theorem goes_pairs (pairs : List (String × Tree)) (nonempty : pairs ≠ []) (indent n : Nat) (outer : Int)
    (indents indents' : List Int) (produced produced' : List Token) (cursor : Cursor) (next : List Char)
    (opens : Opens indent .blockMappingStart outer indents produced indents' produced')
    (rest : cursor.rest = pairsChars indent pairs ++ (spaces n ++ next)) (begun : Begun next)
    (outside : n ≤ indent) (column : cursor.column = indent) :
    ∃ after, after.rest = next ∧ after.column = n ∧
      Goes (inBlock cursor outer indents true none produced)
        ((inBlock after indent indents' true none ((pairTokens pairs).reverse ++ produced')).closeBlocks n) := by
  match pairs with
  | [] => exact absurd rfl nonempty
  | [(key, value)] =>
    rw [pairsChars, List.append_assoc] at rest
    rw [pairTokens, pairTokens, List.append_nil]
    obtain ⟨d, chars, same, gap⟩ := exists_nodeChars indent (isSimpleKey key) value
    rw [same] at rest
    obtain ⟨behind, restBehind, inside, column, goes⟩ := exists_behind_key key opens rest gap column
    have restBehind : behind.rest = nodeChars indent (isSimpleKey key) value ++ (spaces n ++ next) := by
      rw [restBehind, same]
      rfl
    obtain ⟨after, restAfter, columnAfter, reaches⟩ := reaches_node value (isSimpleKey key) indent n indents' _
      behind next restBehind begun outside inside column
    refine ⟨after, restAfter, columnAfter, ?_⟩
    simpa using goes _ reaches
  | (key, value) :: pair :: pairs =>
    rw [pairsChars_cons_cons, List.append_assoc, List.append_assoc, List.append_assoc] at rest
    rw [pairTokens]
    obtain ⟨d, chars, same, gap⟩ := exists_nodeChars indent (isSimpleKey key) value
    rw [same] at rest
    obtain ⟨behind, restBehind, inside, column', goes⟩ := exists_behind_key key opens rest gap column
    have restBehind : behind.rest = nodeChars indent (isSimpleKey key) value ++
        (spaces indent ++ (pairsChars indent (pair :: pairs) ++ (spaces n ++ next))) := by
      rw [restBehind, same]
      rfl
    obtain ⟨between, restBetween, columnBetween, reaches⟩ := reaches_node value (isSimpleKey key) indent indent
      indents' _ behind _ restBehind (begun_pairsChars indent pair pairs _) (Nat.le_refl _) inside column'
    rw [closeBlocks_inside (Int.le_refl _)] at reaches
    obtain ⟨after, restAfter, columnAfter, further⟩ := goes_pairs (pair :: pairs) (by simp) indent n indent indents'
      indents' _ _ between next .here restBetween begun outside columnBetween
    refine ⟨after, restAfter, columnAfter, ?_⟩
    simpa using goes _ (reaches.trans further)

end

end Lexer

/-! ### Whole documents -/

namespace Tree

theorem isReadable_endLine {cs : List Char} (readable : ∀ c ∈ cs, isReadable c = true) :
    ∀ c ∈ endLine cs, isReadable c = true := by
  rw [endLine]
  split
  · exact readable
  · exact List.forall_mem_append.mpr ⟨readable, List.forall_mem_singleton.mpr rfl⟩

theorem isReadable_keyChars (indent : Nat) (key : String) : ∀ c ∈ keyChars indent key, isReadable c = true := by
  have readable := (writtenAs (indent + 2) key).readable
  rw [keyChars]
  split
  · exact List.forall_mem_append.mpr ⟨readable, List.forall_mem_singleton.mpr rfl⟩
  · simp only [List.forall_mem_append, List.forall_mem_cons]
    exact ⟨⟨⟨by decide, by decide, isReadable_endLine readable⟩, fun c => isReadable_spaces⟩, by decide,
      List.forall_mem_nil _⟩

mutual

theorem isReadable_nodeChars (indent : Nat) (simpleKey : Bool) (tree : Tree) :
    ∀ c ∈ nodeChars indent simpleKey tree, isReadable c = true := by
  match tree with
  | text value =>
    rw [nodeChars]
    exact List.forall_mem_cons.mpr ⟨by decide, isReadable_endLine (writtenAs (indent + 2) value).readable⟩
  | sequence [] | mapping [] =>
    rw [nodeChars]
    exact List.all_eq_true.mp rfl
  | sequence (item :: items) =>
    rw [nodeChars]
    split
    · refine List.forall_mem_append.mpr ⟨List.forall_mem_cons.mpr ⟨by decide, fun c => isReadable_spaces⟩, ?_⟩
      exact isReadable_itemsChars indent (item :: items)
    · exact List.forall_mem_cons.mpr ⟨by decide, isReadable_itemsChars (indent + 2) (item :: items)⟩
  | mapping (pair :: pairs) =>
    rw [nodeChars]
    split
    · refine List.forall_mem_append.mpr ⟨List.forall_mem_cons.mpr ⟨by decide, fun c => isReadable_spaces⟩, ?_⟩
      exact isReadable_pairsChars (indent + 2) (pair :: pairs)
    · exact List.forall_mem_cons.mpr ⟨by decide, isReadable_pairsChars (indent + 2) (pair :: pairs)⟩

theorem isReadable_itemsChars (indent : Nat) (items : List Tree) :
    ∀ c ∈ itemsChars indent items, isReadable c = true := by
  match items with
  | [] =>
    rw [itemsChars]
    exact List.forall_mem_nil _
  | [item] =>
    rw [itemsChars]
    exact List.forall_mem_cons.mpr ⟨by decide, isReadable_nodeChars indent false item⟩
  | item :: second :: items =>
    rw [itemsChars_cons_cons]
    simp only [List.forall_mem_append, List.forall_mem_cons]
    exact ⟨⟨⟨by decide, isReadable_nodeChars indent false item⟩, fun c => isReadable_spaces⟩,
      isReadable_itemsChars indent (second :: items)⟩

theorem isReadable_pairsChars (indent : Nat) (pairs : List (String × Tree)) :
    ∀ c ∈ pairsChars indent pairs, isReadable c = true := by
  match pairs with
  | [] =>
    rw [pairsChars]
    exact List.forall_mem_nil _
  | [(key, value)] =>
    rw [pairsChars]
    exact List.forall_mem_append.mpr
      ⟨isReadable_keyChars indent key, isReadable_nodeChars indent (isSimpleKey key) value⟩
  | (key, value) :: pair :: pairs =>
    rw [pairsChars_cons_cons]
    simp only [List.forall_mem_append]
    exact ⟨⟨⟨isReadable_keyChars indent key, isReadable_nodeChars indent (isSimpleKey key) value⟩,
      fun c => isReadable_spaces⟩, isReadable_pairsChars indent (pair :: pairs)⟩

end

end Tree

/-- A mapping in block style, read back as its tokens. -/
theorem tokens?_pairsChars (pair : String × Tree) (pairs : List (String × Tree)) :
    tokens? (pairsChars 0 (pair :: pairs)) = some ((mapping (pair :: pairs)).tokens false) := by
  have rest : (Cursor.start (pairsChars 0 (pair :: pairs))).rest = pairsChars 0 (pair :: pairs) ++ (spaces 0 ++ []) := by
    simp [Cursor.start, spaces]
  have begun := begun_pairsChars 0 pair pairs (spaces 0 ++ [])
  have settled : (Lexer.start (pairsChars 0 (pair :: pairs))).settle? = some _ :=
    Lexer.settle?_gap (n := 0) rest begun (Int.le_trans (by decide) (Int.natCast_nonneg _))
  obtain ⟨after, restAfter, columnAfter, goes⟩ := Lexer.goes_pairs (pair :: pairs) (by simp) 0 0 (-1) [] [-1] []
    [.blockMappingStart] _ [] (.further (by decide)) rest (by simp [Lexer.Begun]) (Nat.le_refl _) rfl
  rw [Lexer.closeBlocks_inside (Int.le_refl _)] at goes
  have readable := List.all_eq_true.mpr (isReadable_pairsChars 0 (pair :: pairs))
  rw [Lexer.tokens?_of_goes readable settled (Nat.le_refl _) goes restAfter, Lexer.finish?, Lexer.leaveBlocks?,
    Lexer.closeBlocks_outside (by decide), tokens]
  simp [Lexer.inBlock, Lexer.closeBlocks, Lexer.closeFrom, Lexer.forgetMark?, Lexer.allowKey]

end DataBind.Yaml
