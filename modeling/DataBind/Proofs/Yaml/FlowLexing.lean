import DataBind.Proofs.Yaml.JsonTexts

/-!
# JSON as tokens

Within flow collections indentation counts for nothing and no place has to be that of a key, so what the
lexer does next follows from the level, the place and the tokens so far. A tree in JSON is read as its tokens
in flow style, by induction over the tree.
-/

namespace DataBind.Yaml

open Yaml.Tree (flowItemTokens flowPairTokens keptItems keptPairs itemsJson pairsJson)

namespace Lexer

/-- A place that need not be that of a key. -/
def IsOptional (keyMark : Option KeyMark) : Prop :=
  ∀ mark ∈ keyMark, mark.required = false

/-- A lexer outside of all blocks. -/
def inFlowAt (level : Nat) (cursor : Cursor) (keyAllowed : Bool) (keyMark : Option KeyMark)
    (outerMarks : List (Option KeyMark)) (produced : List Token) : Lexer :=
  ⟨cursor, level, -1, [], keyAllowed, keyMark, outerMarks, produced⟩

/-- A lexer at a level of flow collections with no place that has to be that of a key. -/
inductive Flowing (level : Nat) (cursor : Cursor) (keyAllowed : Bool) (produced : List Token) : Lexer → Prop
  | intro {keyMark : Option KeyMark} {outerMarks : List (Option KeyMark)} (optional : IsOptional keyMark)
      (optionalOuter : ∀ keyMark ∈ outerMarks, IsOptional keyMark) (depth : outerMarks.length = level) :
      Flowing level cursor keyAllowed produced (inFlowAt level cursor keyAllowed keyMark outerMarks produced)

/-- A settled lexer takes a token, and goes on wherever it reaches from there. -/
def Leads (lexer taken : Lexer) : Prop :=
  ∀ target, Reaches taken target → Goes lexer target

variable {level n : Nat} {cursor : Cursor} {keyAllowed : Bool} {produced : List Token} {lexer : Lexer}
  {keyMark : Option KeyMark} {outerMarks : List (Option KeyMark)} {gap next tail : List Char} {c : Char}

/-- The same before the lexer is settled. -/
def Carries (lexer taken : Lexer) : Prop :=
  ∀ target, Reaches taken target → Reaches lexer target

theorem Leads.trans {taken later : Lexer} (first : Leads lexer taken) (second : Carries taken later) :
    Leads lexer later :=
  fun target further => first target (second target further)

theorem Carries.trans {taken later : Lexer} (first : Carries lexer taken) (second : Carries taken later) :
    Carries lexer later :=
  fun target further => first target (second target further)

theorem Reaches.carries {settled taken : Lexer} (reaches : Reaches lexer settled) (leads : Leads settled taken) :
    Carries lexer taken :=
  fun target further => reaches.trans (leads target further)

/-! ### Settling -/

theorem exists_liveMark? (cursor : Cursor) (optional : IsOptional keyMark) :
    ∃ live, liveMark? cursor keyMark = some live ∧ IsOptional live := by
  cases keyMark with
  | none => exact ⟨none, rfl, optional⟩
  | some mark =>
    have free := optional mark rfl
    cases stale : mark.isStale cursor with
    | false => exact ⟨some mark, by simp [liveMark?, stale], optional⟩
    | true => exact ⟨none, by simp [liveMark?, stale, free], by simp [IsOptional]⟩

theorem exists_liveMarks? (cursor : Cursor) (optional : ∀ keyMark ∈ outerMarks, IsOptional keyMark) :
    ∃ live, outerMarks.mapM (liveMark? cursor) = some live ∧ (∀ keyMark ∈ live, IsOptional keyMark) ∧
      live.length = outerMarks.length := by
  induction outerMarks with
  | nil => exact ⟨[], rfl, by simp, rfl⟩
  | cons keyMark outerMarks ih =>
    obtain ⟨first, later⟩ := List.forall_mem_cons.mp optional
    obtain ⟨live, same, free⟩ := exists_liveMark? cursor first
    obtain ⟨lives, sames, frees, length⟩ := ih later
    refine ⟨live :: lives, ?_, List.forall_mem_cons.mpr ⟨free, frees⟩, congrArg (· + 1) length⟩
    rw [List.mapM_cons, same, sames]
    rfl

theorem closeBlocks_inFlowAt (column : Int) :
    (inFlowAt level cursor keyAllowed keyMark outerMarks produced).closeBlocks column =
      inFlowAt level cursor keyAllowed keyMark outerMarks produced :=
  ite_self _

/-- Spaces, or the end of a line with the indentation of the next one. -/
inductive LineGap (level : Nat) : List Char → Prop
  | spaces (n : Nat) : LineGap level (spaces n)
  | line (inside : 0 < level) (n : Nat) : LineGap level ('\n' :: Yaml.spaces n)

/-- Before the next token nothing changes but the place. -/
theorem Flowing.exists_settled (flowing : Flowing level cursor keyAllowed produced lexer) (line : LineGap level gap)
    (rest : cursor.rest = gap ++ next) (begun : Begun next) :
    ∃ settled, Flowing level (cursor.past gap) keyAllowed produced settled ∧ Reaches lexer settled := by
  cases flowing with
  | @intro keyMark outerMarks optional optionalOuter depth =>
    obtain ⟨live, same, free⟩ := exists_liveMark? (cursor.past gap) optional
    obtain ⟨lives, sames, frees, length⟩ := exists_liveMarks? (cursor.past gap) optionalOuter
    have shorter : (cursor.past gap).rest.length ≤ cursor.rest.length :=
      Nat.le_of_add_right_le (Nat.le_of_eq (Cursor.length_past rest))
    refine ⟨_, .intro free frees (length.trans depth), .here ?_ shorter⟩
    cases line with
    | spaces n =>
      have settled : (inFlowAt level cursor keyAllowed keyMark outerMarks produced).settle? =
          some ((inFlowAt level (cursor.past (spaces n)) keyAllowed live lives produced).closeBlocks
            (cursor.past (spaces n)).column) := settle?_spaces rest begun same sames
      rw [settled, closeBlocks_inFlowAt]
    | line inside n =>
      have allowed : (keyAllowed || !decide (0 < level)) = keyAllowed := by simp [inside]
      have settled : (inFlowAt level cursor keyAllowed keyMark outerMarks produced).settle? =
          some ((inFlowAt level (cursor.past ('\n' :: spaces n)) (keyAllowed || !decide (0 < level)) live lives
            produced).closeBlocks n) := settle?_line rest begun same sames
      rw [settled, allowed, closeBlocks_inFlowAt]

/-! ### Steps -/

theorem leads_of_step {taken : Lexer} {chars : List Char} (here : lexer.cursor.rest = c :: tail)
    (rest : lexer.cursor.rest = chars ++ next) (nonempty : chars ≠ []) (step : lexer.step? c = some taken)
    (moved : taken.cursor = lexer.cursor.past chars) : Leads lexer taken :=
  fun _ reaches => reaches.goes here step (moved ▸ Cursor.length_past_lt rest nonempty)

theorem forgetMark?_inFlowAt (optional : IsOptional keyMark) :
    (inFlowAt level cursor keyAllowed keyMark outerMarks produced).forgetMark? =
      some (inFlowAt level cursor keyAllowed none outerMarks produced) := by
  cases keyMark with
  | none => rfl
  | some mark =>
    have free := optional mark rfl
    simp [forgetMark?, inFlowAt, free]

/-- The place of a key that begins at the cursor, if one may. -/
def markedAt (cursor : Cursor) (keyAllowed : Bool) (keyMark : Option KeyMark) (number : Nat) : Option KeyMark :=
  if keyAllowed then some ⟨false, number, cursor.index, cursor.line, cursor.column⟩ else keyMark

theorem isOptional_markedAt (optional : IsOptional keyMark) (cursor : Cursor) (keyAllowed : Bool) (number : Nat) :
    IsOptional (markedAt cursor keyAllowed keyMark number) := by
  cases keyAllowed with
  | false => exact optional
  | true =>
    rintro _ ⟨⟩
    rfl

theorem markKey?_inFlowAt (optional : IsOptional keyMark) :
    (inFlowAt level cursor keyAllowed keyMark outerMarks produced).markKey? =
      some (inFlowAt level cursor keyAllowed (markedAt cursor keyAllowed keyMark produced.length) outerMarks
        produced) := by
  cases keyAllowed with
  | false => rfl
  | true =>
    have outside : ((-1 : Int) == cursor.column) = false := beq_eq_false_iff_ne.mpr (by omega)
    rw [markKey?, forgetMark?_inFlowAt optional]
    simp [inFlowAt, markedAt, outside]

theorem Flowing.exists_open (flowing : Flowing level cursor keyAllowed produced lexer) (mapping : Bool)
    (rest : cursor.rest = openMark mapping :: tail) :
    ∃ taken, Flowing (level + 1) (cursor.past [openMark mapping]) true (openToken mapping :: produced) taken ∧
      Leads lexer taken := by
  cases flowing with
  | @intro keyMark outerMarks optional optionalOuter depth =>
    have step : (inFlowAt level cursor keyAllowed keyMark outerMarks produced).step? (openMark mapping) =
        some (inFlowAt (level + 1) (cursor.past [openMark mapping]) true none
          (markedAt cursor keyAllowed keyMark produced.length :: outerMarks) (openToken mapping :: produced)) := by
      rw [step?_openMark mapping rest, openFlow?, markKey?_inFlowAt optional,
        Cursor.past_unbroken (isBreak_openMark mapping)]
      rfl
    have marked := isOptional_markedAt optional cursor keyAllowed produced.length
    have here : cursor.rest = [openMark mapping] ++ tail := rest
    exact ⟨_, .intro (by simp [IsOptional]) (List.forall_mem_cons.mpr ⟨marked, optionalOuter⟩) (congrArg (· + 1) depth),
      leads_of_step rest here (by simp) step rfl⟩

theorem Flowing.exists_close (flowing : Flowing (level + 1) cursor keyAllowed produced lexer) (mapping : Bool)
    (rest : cursor.rest = closeMark mapping :: tail) :
    ∃ taken, Flowing level (cursor.past [closeMark mapping]) false (closeToken mapping :: produced) taken ∧
      Leads lexer taken := by
  cases flowing with
  | @intro keyMark outerMarks optional optionalOuter depth =>
    obtain ⟨outer, outerMarks, rfl⟩ := List.exists_cons_of_length_eq_add_one depth
    obtain ⟨optionalFirst, optionalOuter⟩ := List.forall_mem_cons.mp optionalOuter
    have step : (inFlowAt (level + 1) cursor keyAllowed keyMark (outer :: outerMarks) produced).step?
        (closeMark mapping) =
          some (inFlowAt level (cursor.past [closeMark mapping]) false outer outerMarks
            (closeToken mapping :: produced)) := by
      rw [step?_closeMark mapping rest, closeFlow?, forgetMark?_inFlowAt optional,
        Cursor.past_unbroken (isBreak_closeMark mapping)]
      rfl
    have here : cursor.rest = [closeMark mapping] ++ tail := rest
    exact ⟨_, .intro optionalFirst optionalOuter (Nat.succ.inj depth), leads_of_step rest here (by simp) step rfl⟩

theorem step?_comma (rest : lexer.cursor.rest = ',' :: tail) : lexer.step? ',' = lexer.flowEntry? := by
  obtain ⟨percent, dashes, dots⟩ := unmarked_of_ne rest (by decide) (by decide) (by decide)
  unfold step?
  dsimp only
  rw [percent, if_neg Bool.false_ne_true, dashes, if_neg Bool.false_ne_true, dots, if_neg Bool.false_ne_true]
  rfl

theorem Flowing.exists_comma (flowing : Flowing level cursor keyAllowed produced lexer)
    (rest : cursor.rest = ',' :: tail) :
    ∃ taken, Flowing level (cursor.past [',']) true (.flowEntry :: produced) taken ∧ Leads lexer taken := by
  cases flowing with
  | @intro keyMark outerMarks optional optionalOuter depth =>
    have step : (inFlowAt level cursor keyAllowed keyMark outerMarks produced).step? ',' =
        some (inFlowAt level (cursor.past [',']) true none outerMarks (.flowEntry :: produced)) := by
      rw [step?_comma rest, flowEntry?, forgetMark?_inFlowAt optional]
      rfl
    exact ⟨_, .intro (by simp [IsOptional]) optionalOuter depth,
      leads_of_step rest (show cursor.rest = [','] ++ tail from rest) (by simp) step rfl⟩

/-! ### Texts -/

theorem step?_quoted {written text : List Char} (optional : IsOptional keyMark) (quoted : QuotedText false written text)
    (rest : cursor.rest = '"' :: written ++ '"' :: tail) (closed : tail.head? ≠ some '\'') :
    (inFlowAt level cursor keyAllowed keyMark outerMarks produced).step? '"' =
      some (inFlowAt level (cursor.past ('"' :: written ++ ['"'])) false
        (markedAt cursor keyAllowed keyMark produced.length) outerMarks
        (.scalar .doubleQuoted (String.ofList text) :: produced)) := by
  have read : quotedScalar? false cursor = some (text, cursor.past ('"' :: written ++ ['"'])) :=
    quotedScalar?_eq quoted rest closed
  have step : (inFlowAt level cursor keyAllowed keyMark outerMarks produced).step? '"' = _ :=
    step?_quote false (unmarked_of_ne rest (by decide) (by decide) (by decide))
  rw [step, Lexer.quoted?, content?, markKey?_inFlowAt optional]
  dsimp only [Option.bind_eq_bind, Option.bind_some, inFlowAt]
  rw [read]
  rfl

theorem Flowing.exists_text (flowing : Flowing level cursor keyAllowed produced lexer) {text : String}
    (kept : keptInJson text = true) (rest : cursor.rest = Json.quoted text ++ tail) (closed : tail.head? ≠ some '\'') :
    ∃ taken, Flowing level (cursor.past (Json.quoted text)) false (.scalar .doubleQuoted text :: produced) taken ∧
      Leads lexer taken := by
  cases flowing with
  | @intro keyMark outerMarks optional optionalOuter depth =>
    have here : cursor.rest = '"' :: jsonText text ++ '"' :: tail := by
      simpa [Json.quoted, Json.quote, jsonText] using rest
    have step : (inFlowAt level cursor keyAllowed keyMark outerMarks produced).step? '"' = some _ :=
      step?_quoted optional (quotedText_json kept) here closed
    rw [String.ofList_toList] at step
    exact ⟨_, .intro (isOptional_markedAt optional cursor keyAllowed produced.length) optionalOuter depth,
      leads_of_step here rest (by simp [Json.quoted, Json.quote]) step rfl⟩

/-- The colon after a key that was marked. -/
theorem step?_flowValue {mark : KeyMark} {scalar : Token} (number : mark.number = produced.length)
    (rest : cursor.rest = ':' :: tail) :
    (inFlowAt (level + 1) cursor keyAllowed (some mark) outerMarks (scalar :: produced)).step? ':' =
      some (inFlowAt (level + 1) (cursor.past [':']) false none outerMarks (.value :: scalar :: .key :: produced)) := by
  have step : (inFlowAt (level + 1) cursor keyAllowed (some mark) outerMarks (scalar :: produced)).step? ':' = _ :=
    step?_colon (unmarked_of_ne rest (by decide) (by decide) (by decide)) rfl
  have later : (scalar :: produced).length - mark.number = 1 := by simp [number]
  rw [step, value?]
  dsimp only [inFlowAt, emitAt]
  rw [later]
  rfl

theorem Flowing.exists_key (flowing : Flowing (level + 1) cursor true produced lexer) {key : String}
    (kept : keptAsKey key = true) (rest : cursor.rest = Json.quoted key ++ ':' :: tail) :
    ∃ taken, Flowing (level + 1) (cursor.past (Json.quoted key ++ [':'])) false
        (.value :: .scalar .doubleQuoted key :: .key :: produced) taken ∧ Leads lexer taken := by
  cases flowing with
  | @intro keyMark outerMarks optional optionalOuter depth =>
    have here : cursor.rest = '"' :: jsonText key ++ '"' :: ':' :: tail := by
      simpa [Json.quoted, Json.quote, jsonText] using rest
    have first : (inFlowAt (level + 1) cursor true keyMark outerMarks produced).step? '"' = some _ :=
      step?_quoted optional (quotedText_json (keptInJson_of_keptAsKey kept)) here (by simp)
    rw [String.ofList_toList] at first
    have text := leads_of_step here rest (by simp) first rfl
    -- The colon is on the same line and near enough, so the key has not been forgotten.
    obtain ⟨unbroken, short⟩ := isBreak_quoted_of_keptAsKey kept
    have behind := Cursor.rest_past rest
    have live : liveMark? ((cursor.past (Json.quoted key)).past (spaces 0))
        (markedAt cursor true keyMark produced.length) = some (markedAt cursor true keyMark produced.length) := by
      refine liveMark?_of_near (Cursor.line_past unbroken) ?_
      show (cursor.past (Json.quoted key)).index ≤ cursor.index + 1024
      rw [Cursor.index_past rest]
      exact Nat.add_le_add_left short _
    obtain ⟨lives, sames, frees, length⟩ := exists_liveMarks? (cursor.past (Json.quoted key)) optionalOuter
    have begun : Begun (':' :: tail) := by
      rintro _ ⟨⟩
      decide
    have settled : (inFlowAt (level + 1) (cursor.past (Json.quoted key)) false
        (markedAt cursor true keyMark produced.length) outerMarks (.scalar .doubleQuoted key :: produced)).settle? =
          some _ := settle?_spaces (n := 0) behind begun live sames
    have value : (inFlowAt (level + 1) (cursor.past (Json.quoted key)) false
        (markedAt cursor true keyMark produced.length) lives (.scalar .doubleQuoted key :: produced)).step? ':' =
          some _ := step?_flowValue rfl behind
    have colon := leads_of_step behind (show (cursor.past (Json.quoted key)).rest = [':'] ++ tail from behind)
      (by simp) value rfl
    rw [Cursor.past_append]
    exact ⟨_, .intro (by simp [IsOptional]) frees (length.trans depth),
      text.trans ((Reaches.here settled (Nat.le_refl _)).carries colon)⟩

/-! ### Trees -/

theorem prettyItems_cons_cons (indent : Nat) (item second : Json) (rest : List Json) :
    Json.prettyItems indent (item :: second :: rest) =
      Json.newLine indent ++ Json.prettyChars indent item ++ ',' :: Json.prettyItems indent (second :: rest) := by
  rw [Json.prettyItems]
  simp

theorem prettyMembers_cons_cons (indent : Nat) (key : String) (value : Json) (second : String × Json)
    (rest : List (String × Json)) :
    Json.prettyMembers indent ((key, value) :: second :: rest) =
      Json.newLine indent ++ Json.quoted key ++ ':' :: ' ' :: Json.prettyChars indent value ++
        ',' :: Json.prettyMembers indent (second :: rest) := by
  rw [Json.prettyMembers]
  simp

theorem begun_prettyChars (indent : Nat) (tree : Tree) (tail : List Char) :
    Begun (Json.prettyChars indent tree.toJson ++ tail) := by
  cases tree with
  | text value =>
    rintro _ ⟨⟩
    decide
  | sequence items =>
    cases items <;>
      · rintro _ ⟨⟩
        decide
  | mapping pairs =>
    cases pairs <;>
      · rintro _ ⟨⟩
        decide

theorem lineGap_newLine (level indent : Nat) : LineGap (level + 1) (Json.newLine indent) :=
  .line (Nat.succ_pos level) (2 * indent)

/-- The closing bracket on a line of its own. -/
theorem Flowing.exists_end (flowing : Flowing (level + 1) cursor keyAllowed produced lexer) (mapping : Bool)
    {indent : Nat} (rest : cursor.rest = Json.newLine indent ++ closeMark mapping :: tail) :
    ∃ taken, Flowing level (cursor.past (Json.newLine indent ++ [closeMark mapping])) false
      (closeToken mapping :: produced) taken ∧ Carries lexer taken := by
  have begun : Begun (closeMark mapping :: tail) := by
    rintro _ ⟨⟩
    cases mapping <;> decide
  obtain ⟨settled, atMark, reaches⟩ := flowing.exists_settled (lineGap_newLine level indent) rest begun
  obtain ⟨taken, closed, leads⟩ := atMark.exists_close mapping (Cursor.rest_past rest)
  rw [Cursor.past_append]
  exact ⟨taken, closed, reaches.carries leads⟩

/-- The comma behind an item or a pair. -/
theorem Flowing.exists_next (flowing : Flowing level cursor keyAllowed produced lexer)
    (rest : cursor.rest = ',' :: tail) :
    ∃ taken, Flowing level (cursor.past [',']) true (.flowEntry :: produced) taken ∧ Carries lexer taken := by
  have begun : Begun (',' :: tail) := by
    rintro _ ⟨⟩
    decide
  obtain ⟨settled, atComma, reaches⟩ := flowing.exists_settled (.spaces 0) rest begun
  obtain ⟨taken, further, leads⟩ := atComma.exists_comma rest
  exact ⟨taken, further, reaches.carries leads⟩

/-- An empty collection. -/
theorem Flowing.exists_empty (flowing : Flowing level cursor keyAllowed produced lexer) (mapping : Bool)
    (rest : cursor.rest = openMark mapping :: closeMark mapping :: tail) :
    ∃ taken, Flowing level (cursor.past [openMark mapping, closeMark mapping]) false
      (closeToken mapping :: openToken mapping :: produced) taken ∧ Leads lexer taken := by
  have begun : Begun (closeMark mapping :: tail) := by
    rintro _ ⟨⟩
    cases mapping <;> decide
  have behind : (cursor.past [openMark mapping]).rest = closeMark mapping :: tail :=
    Cursor.rest_past (show cursor.rest = [openMark mapping] ++ _ from rest)
  obtain ⟨opened, inside, first⟩ := flowing.exists_open mapping rest
  obtain ⟨settled, atMark, reaches⟩ := inside.exists_settled (.spaces 0) behind begun
  obtain ⟨taken, closed, leads⟩ := atMark.exists_close mapping behind
  rw [Cursor.past_cons]
  exact ⟨taken, closed, first.trans (reaches.carries leads)⟩

/-- A key on a line of its own, with its colon. -/
theorem Flowing.exists_member (flowing : Flowing (level + 1) cursor true produced lexer) {indent : Nat} {key : String}
    (kept : keptAsKey key = true) (rest : cursor.rest = Json.newLine indent ++ Json.quoted key ++ ':' :: tail) :
    ∃ taken, Flowing (level + 1) (cursor.past (Json.newLine indent ++ Json.quoted key ++ [':'])) false
        (.value :: .scalar .doubleQuoted key :: .key :: produced) taken ∧ Carries lexer taken := by
  have begun : Begun (Json.quoted key ++ ':' :: tail) := by
    rintro _ ⟨⟩
    decide
  rw [List.append_assoc] at rest ⊢
  obtain ⟨settled, atKey, reaches⟩ := flowing.exists_settled (lineGap_newLine level indent) rest begun
  obtain ⟨taken, behind, leads⟩ := atKey.exists_key kept (Cursor.rest_past rest)
  rw [Cursor.past_append]
  exact ⟨taken, behind, reaches.carries leads⟩

mutual

/-- A value, behind what separates it from the token before. -/
theorem carries_tree (tree : Tree) (gap : List Char) (indent level : Nat) (cursor : Cursor) (keyAllowed : Bool)
    (produced : List Token) (lexer : Lexer) (tail : List Char)
    (flowing : Flowing level cursor keyAllowed produced lexer) (kept : tree.kept = true) (line : LineGap level gap)
    (rest : cursor.rest = gap ++ (Json.prettyChars indent tree.toJson ++ tail)) (closed : tail.head? ≠ some '\'') :
    ∃ taken, Flowing level (cursor.past (gap ++ Json.prettyChars indent tree.toJson)) false
      (tree.flowTokens.reverse ++ produced) taken ∧ Carries lexer taken := by
  obtain ⟨settled, begun, reaches⟩ := flowing.exists_settled line rest (begun_prettyChars indent tree tail)
  have here := Cursor.rest_past rest
  rw [Cursor.past_append]
  match tree with
  | .text value =>
    obtain ⟨taken, behind, leads⟩ := begun.exists_text kept here closed
    exact ⟨taken, behind, reaches.carries leads⟩
  | .sequence [] =>
    obtain ⟨taken, behind, leads⟩ := begun.exists_empty false here
    exact ⟨taken, behind, reaches.carries leads⟩
  | .mapping [] =>
    obtain ⟨taken, behind, leads⟩ := begun.exists_empty true here
    exact ⟨taken, behind, reaches.carries leads⟩
  | .sequence (item :: items) =>
    have atOpen : (cursor.past gap).rest = ['['] ++
        (Json.prettyItems (indent + 1) (itemsJson (item :: items)) ++ (Json.newLine indent ++ ']' :: tail)) := by
      simpa [Tree.toJson, itemsJson, Json.prettyChars] using here
    obtain ⟨opened, inside, leads⟩ := begun.exists_open false atOpen
    obtain ⟨taken, behind, carries⟩ := carries_items (item :: items) (by simp) (indent + 1) indent level _ _ opened tail
      inside kept (Cursor.rest_past atOpen)
    refine ⟨taken, ?_, (reaches.carries leads).trans carries⟩
    rw [← Cursor.past_append] at behind
    simpa [Tree.toJson, itemsJson, Json.prettyChars, Tree.flowTokens, openMark, openToken] using behind
  | .mapping (pair :: pairs) =>
    have atOpen : (cursor.past gap).rest = ['\x7b'] ++
        (Json.prettyMembers (indent + 1) (pairsJson (pair :: pairs)) ++ (Json.newLine indent ++ '\x7d' :: tail)) := by
      simpa [Tree.toJson, pairsJson, Json.prettyChars] using here
    obtain ⟨opened, inside, leads⟩ := begun.exists_open true atOpen
    obtain ⟨taken, behind, carries⟩ := carries_pairs (pair :: pairs) (by simp) (indent + 1) indent level _ _ opened tail
      inside kept (Cursor.rest_past atOpen)
    refine ⟨taken, ?_, (reaches.carries leads).trans carries⟩
    rw [← Cursor.past_append] at behind
    simpa [Tree.toJson, pairsJson, Json.prettyChars, Tree.flowTokens, openMark, openToken] using behind

/-- Items behind their bracket or a comma, with the closing bracket. -/
theorem carries_items (items : List Tree) (nonempty : items ≠ []) (indent n level : Nat) (cursor : Cursor)
    (produced : List Token) (lexer : Lexer) (tail : List Char) (flowing : Flowing (level + 1) cursor true produced lexer)
    (kept : keptItems items = true)
    (rest : cursor.rest = Json.prettyItems indent (itemsJson items) ++ (Json.newLine n ++ ']' :: tail)) :
    ∃ taken, Flowing level (cursor.past (Json.prettyItems indent (itemsJson items) ++ (Json.newLine n ++ [']']))) false
        ((flowItemTokens true items).reverse ++ produced) taken ∧ Carries lexer taken := by
  match items with
  | [] => exact absurd rfl nonempty
  | [item] =>
    rw [itemsJson, itemsJson, Json.prettyItems] at rest ⊢
    obtain ⟨taken, behind, first⟩ := carries_tree item (Json.newLine indent) indent (level + 1) cursor true produced
      lexer (Json.newLine n ++ ']' :: tail) flowing (by simpa [keptItems] using kept) (lineGap_newLine level indent)
      (rest.trans (List.append_assoc _ _ _)) (by simp [Json.newLine])
    obtain ⟨ended, closed, last⟩ := behind.exists_end false (Cursor.rest_past rest)
    refine ⟨ended, ?_, first.trans last⟩
    rw [← Cursor.past_append] at closed
    simpa [flowItemTokens, closeMark, closeToken] using closed
  | item :: second :: items =>
    rw [itemsJson, itemsJson, prettyItems_cons_cons, List.append_assoc] at rest ⊢
    simp only [keptItems, Bool.and_eq_true] at kept
    obtain ⟨taken, behind, first⟩ := carries_tree item (Json.newLine indent) indent (level + 1) cursor true produced
      lexer _ flowing kept.1 (lineGap_newLine level indent) (rest.trans (List.append_assoc _ _ _)) (by simp)
    have atComma := Cursor.rest_past rest
    obtain ⟨further, afterComma, comma⟩ := behind.exists_next atComma
    obtain ⟨ended, closed, last⟩ := carries_items (second :: items) (by simp) indent n level _ _ further tail afterComma
      (by simpa [keptItems] using kept.2) (Cursor.rest_past (show _ = [','] ++ _ from atComma))
    refine ⟨ended, ?_, (first.trans comma).trans last⟩
    rw [← Cursor.past_append, ← Cursor.past_append] at closed
    simpa [itemsJson, flowItemTokens] using closed

theorem carries_pairs (pairs : List (String × Tree)) (nonempty : pairs ≠ []) (indent n level : Nat) (cursor : Cursor)
    (produced : List Token) (lexer : Lexer) (tail : List Char) (flowing : Flowing (level + 1) cursor true produced lexer)
    (kept : keptPairs pairs = true)
    (rest : cursor.rest = Json.prettyMembers indent (pairsJson pairs) ++ (Json.newLine n ++ '\x7d' :: tail)) :
    ∃ taken, Flowing level
        (cursor.past (Json.prettyMembers indent (pairsJson pairs) ++ (Json.newLine n ++ ['\x7d']))) false
        ((flowPairTokens true pairs).reverse ++ produced) taken ∧ Carries lexer taken := by
  match pairs with
  | [] => exact absurd rfl nonempty
  | [(key, value)] =>
    rw [pairsJson, pairsJson, Json.prettyMembers, List.append_assoc] at rest ⊢
    simp only [keptPairs, Bool.and_eq_true, and_true] at kept
    obtain ⟨named, behindKey, first⟩ := flowing.exists_member kept.1 rest
    have atValue : (cursor.past (Json.newLine indent ++ Json.quoted key ++ [':'])).rest =
        [' '] ++ (Json.prettyChars indent value.toJson ++ (Json.newLine n ++ '\x7d' :: tail)) :=
      Cursor.rest_past (rest.trans (List.append_cons _ _ _))
    obtain ⟨taken, behind, second⟩ := carries_tree value [' '] indent (level + 1) _ false _ named _ behindKey kept.2
      (.spaces 1) atValue (by simp [Json.newLine])
    obtain ⟨ended, closed, last⟩ :=
      behind.exists_end true (Cursor.rest_past (atValue.trans (List.append_assoc _ _ _).symm))
    refine ⟨ended, ?_, (first.trans second).trans last⟩
    rw [← Cursor.past_append, ← Cursor.past_append] at closed
    simpa [flowPairTokens, closeMark, closeToken] using closed
  | (key, value) :: next :: pairs =>
    rw [pairsJson, pairsJson, prettyMembers_cons_cons, List.append_assoc, List.append_assoc] at rest ⊢
    simp only [keptPairs, Bool.and_eq_true] at kept
    obtain ⟨named, behindKey, first⟩ := flowing.exists_member kept.1.1 rest
    have atValue : (cursor.past (Json.newLine indent ++ Json.quoted key ++ [':'])).rest =
        [' '] ++ (Json.prettyChars indent value.toJson ++ (',' :: Json.prettyMembers indent (pairsJson (next :: pairs)) ++
          (Json.newLine n ++ '\x7d' :: tail))) :=
      Cursor.rest_past (rest.trans (List.append_cons _ _ _))
    obtain ⟨taken, behind, second⟩ := carries_tree value [' '] indent (level + 1) _ false _ named _ behindKey kept.1.2
      (.spaces 1) atValue (by simp)
    have atComma := Cursor.rest_past (atValue.trans (List.append_assoc _ _ _).symm)
    obtain ⟨further, afterComma, comma⟩ := behind.exists_next atComma
    obtain ⟨ended, closed, last⟩ := carries_pairs (next :: pairs) (by simp) indent n level _ _ further tail afterComma
      (by simpa [keptPairs] using kept.2) (Cursor.rest_past (show _ = [','] ++ _ from atComma))
    refine ⟨ended, ?_, ((first.trans second).trans comma).trans last⟩
    rw [← Cursor.past_append, ← Cursor.past_append, ← Cursor.past_append] at closed
    simpa [pairsJson, flowPairTokens] using closed

end

end Lexer

/-! ### Whole documents -/

theorem isReadable_newLine (indent : Nat) : ∀ c ∈ Json.newLine indent, isReadable c = true :=
  List.forall_mem_cons.mpr ⟨by decide, fun c member => isReadable_spaces (n := 2 * indent) member⟩

mutual

theorem isReadable_prettyChars (tree : Tree) (kept : tree.kept = true) (indent : Nat) :
    ∀ c ∈ Json.prettyChars indent tree.toJson, isReadable c = true := by
  match tree with
  | .text value => exact isReadable_quoted kept
  | .sequence [] => exact List.all_eq_true.mp rfl
  | .mapping [] => exact List.all_eq_true.mp rfl
  | .sequence (item :: items) =>
    have inside := isReadable_prettyItems (item :: items) kept (indent + 1)
    simp only [Tree.toJson, itemsJson, Json.prettyChars, List.forall_mem_append, List.forall_mem_cons] at inside ⊢
    exact ⟨⟨⟨by decide, inside⟩, isReadable_newLine indent⟩, by decide, List.forall_mem_nil _⟩
  | .mapping (pair :: pairs) =>
    have inside := isReadable_prettyMembers (pair :: pairs) kept (indent + 1)
    simp only [Tree.toJson, pairsJson, Json.prettyChars, List.forall_mem_append, List.forall_mem_cons] at inside ⊢
    exact ⟨⟨⟨by decide, inside⟩, isReadable_newLine indent⟩, by decide, List.forall_mem_nil _⟩

theorem isReadable_prettyItems (items : List Tree) (kept : keptItems items = true) (indent : Nat) :
    ∀ c ∈ Json.prettyItems indent (itemsJson items), isReadable c = true := by
  match items with
  | [] => exact List.forall_mem_nil _
  | [item] =>
    have inside := isReadable_prettyChars item (by simpa [keptItems] using kept) indent
    exact List.forall_mem_append.mpr ⟨isReadable_newLine indent, inside⟩
  | item :: second :: items =>
    rw [keptItems, Bool.and_eq_true] at kept
    have first := isReadable_prettyChars item kept.1 indent
    have later := isReadable_prettyItems (second :: items) kept.2 indent
    simp only [itemsJson, Lexer.prettyItems_cons_cons, List.forall_mem_append, List.forall_mem_cons] at later ⊢
    exact ⟨⟨isReadable_newLine indent, first⟩, by decide, later⟩

theorem isReadable_prettyMembers (pairs : List (String × Tree)) (kept : keptPairs pairs = true) (indent : Nat) :
    ∀ c ∈ Json.prettyMembers indent (pairsJson pairs), isReadable c = true := by
  match pairs with
  | [] => exact List.forall_mem_nil _
  | [(key, value)] =>
    simp only [keptPairs, Bool.and_eq_true, and_true] at kept
    have inside := isReadable_prettyChars value kept.2 indent
    have name := isReadable_quoted (keptInJson_of_keptAsKey kept.1)
    simp only [pairsJson, Json.prettyMembers, List.forall_mem_append, List.forall_mem_cons]
    exact ⟨⟨isReadable_newLine indent, name⟩, by decide, by decide, inside⟩
  | (key, value) :: next :: pairs =>
    simp only [keptPairs, Bool.and_eq_true] at kept
    have first := isReadable_prettyChars value kept.1.2 indent
    have name := isReadable_quoted (keptInJson_of_keptAsKey kept.1.1)
    have later := isReadable_prettyMembers (next :: pairs) (by simpa [keptPairs] using kept.2) indent
    simp only [pairsJson, Lexer.prettyMembers_cons_cons, List.forall_mem_append, List.forall_mem_cons] at later ⊢
    exact ⟨⟨⟨isReadable_newLine indent, name⟩, by decide, by decide, first⟩, by decide, later⟩

end

/-- A tree in JSON, read as its tokens. -/
theorem tokens?_prettyChars {tree : Tree} (kept : tree.kept = true) (indent : Nat) :
    tokens? (Json.prettyChars indent tree.toJson) = some tree.flowTokens := by
  have start : Lexer.Flowing 0 (Cursor.start (Json.prettyChars indent tree.toJson)) true []
      (Lexer.start (Json.prettyChars indent tree.toJson)) := .intro (by simp [Lexer.IsOptional]) (by simp) rfl
  obtain ⟨taken, behind, carries⟩ := Lexer.carries_tree tree [] indent 0 _ true [] _ [] start kept (.spaces 0)
    (List.append_nil _).symm (by simp)
  have ended := Cursor.rest_past (show (Cursor.start (Json.prettyChars indent tree.toJson)).rest = _ from
    (List.append_nil _).symm)
  obtain ⟨last, atEnd, reaches⟩ := behind.exists_settled (.spaces 0) ended (by simp [Lexer.Begun])
  obtain ⟨first, settled, inside, goes⟩ := carries last reaches
  have readable := List.all_eq_true.mpr (isReadable_prettyChars tree kept indent)
  cases atEnd with
  | intro optional =>
    rw [Lexer.tokens?_of_goes readable settled inside goes ended, Lexer.finish?, Lexer.leaveBlocks?,
      Lexer.closeBlocks_inFlowAt, Lexer.forgetMark?_inFlowAt optional]
    simp [Lexer.inFlowAt, Lexer.allowKey]

namespace Tree

theorem ofText?_pretty {tree : Tree} (kept : tree.kept = true) :
    Document.ofText? tree.toJson.pretty = some (.ofNode (tree.node jsonStyle)) := by
  have lexed : tokens? tree.toJson.pretty.toList = some tree.flowTokens :=
    (congrArg tokens? String.toList_ofList).trans (tokens?_prettyChars kept 0)
  have read : node? defaultHandles _ .block _ = _ :=
    node?_flowTokens tree .block (3 * tree.flowTokens.length + 8) [] (by omega)
  rw [List.append_nil] at read
  cases tree with
  | text value | sequence items | mapping pairs => exact ofText?_of_node lexed rfl read

end Tree

end DataBind.Yaml
