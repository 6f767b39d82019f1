import DataBind.Proofs.Yaml.LiteralScalars
import DataBind.Yaml.Lexer
import Mathlib.Logic.Relation

/-!
# Runs of the lexer

Before each token the lexer skips what is no token, forgets places where no key can be any more and closes
blocks that have ended; it is settled then. A run goes from one settled state to the next, and each step
takes characters, so that there is always fuel left.
-/

namespace DataBind.Yaml

namespace Lexer

/-- The lexer before its next token. -/
def settle? (lexer : Lexer) : Option Lexer :=
  (skipGap (lexer.cursor.rest.length + 1) lexer).dropStaleMarks?.map fun lexer =>
    lexer.closeBlocks lexer.cursor.column

/-- What a settled lexer still gives. -/
def resume? (fuel : Nat) (lexer : Lexer) : Option (List Token) :=
  match lexer.cursor.rest with
  | [] => lexer.finish?
  | c :: _ => (lexer.step? c).bind (run? fuel)

theorem run?_succ (fuel : Nat) (lexer : Lexer) :
    run? (fuel + 1) lexer = lexer.settle?.bind (resume? fuel) := by
  rw [run?, settle?]
  cases (skipGap (lexer.cursor.rest.length + 1) lexer).dropStaleMarks? with
  | none => rfl
  | some lexer => rfl

/-- One token, with what it brings, from one settled state to the next. -/
def Next (before after : Lexer) : Prop :=
  ∃ c rest taken, before.cursor.rest = c :: rest ∧ before.step? c = some taken ∧
    taken.settle? = some after ∧ after.cursor.rest.length < before.cursor.rest.length

def Goes : Lexer → Lexer → Prop :=
  Relation.ReflTransGen Next

theorem Next.resume? {before after : Lexer} (next : Next before after) (fuel : Nat) :
    before.resume? (fuel + 1) = after.resume? fuel := by
  obtain ⟨c, rest, taken, same, step, settled, -⟩ := next
  rw [Lexer.resume?, same]
  simp only [step, Option.bind_some, run?_succ, settled]

theorem Goes.resume? {before after : Lexer} (goes : Goes before after) :
    ∃ steps, steps + after.cursor.rest.length ≤ before.cursor.rest.length ∧
      ∀ fuel, before.resume? (fuel + steps) = after.resume? fuel := by
  induction goes using Relation.ReflTransGen.head_induction_on with
  | refl => exact ⟨0, by omega, fun _ => rfl⟩
  | @head before between next _ ih =>
    obtain ⟨steps, fewer, same⟩ := ih
    obtain ⟨_, _, _, _, _, _, shorter⟩ := id next
    refine ⟨steps + 1, by omega, fun fuel => ?_⟩
    rw [← Nat.add_assoc, next.resume?, same]

/-- A run over a whole text. -/
theorem tokens?_of_goes {text : List Char} {first last : Lexer} (readable : text.all isReadable = true)
    (settled : (start text).settle? = some first) (inside : first.cursor.rest.length ≤ text.length)
    (goes : Goes first last) (ended : last.cursor.rest = []) : tokens? text = last.finish? := by
  obtain ⟨steps, fewer, same⟩ := goes.resume?
  obtain ⟨spare, enough⟩ := Nat.exists_eq_add_of_le (show steps ≤ text.length by omega)
  rw [tokens?, if_pos readable, run?_succ, settled, Option.bind_some, enough, Nat.add_comm, same,
    Lexer.resume?, ended]

/-- Once it is settled, the lexer goes on to the other state. -/
def Reaches (lexer target : Lexer) : Prop :=
  ∃ start, lexer.settle? = some start ∧ start.cursor.rest.length ≤ lexer.cursor.rest.length ∧
    Goes start target

theorem Reaches.trans {lexer between target : Lexer} (first : Reaches lexer between)
    (later : Goes between target) : Reaches lexer target := by
  obtain ⟨start, settled, inside, goes⟩ := first
  exact ⟨start, settled, inside, Relation.ReflTransGen.trans goes later⟩

theorem Reaches.goes {before taken target : Lexer} {c : Char} {tail : List Char}
    (reaches : Reaches taken target) (rest : before.cursor.rest = c :: tail)
    (step : before.step? c = some taken) (shorter : taken.cursor.rest.length < before.cursor.rest.length) :
    Goes before target := by
  obtain ⟨start, settled, inside, goes⟩ := reaches
  exact .head ⟨c, tail, taken, rest, step, settled, by omega⟩ goes

theorem Reaches.here {lexer target : Lexer} (settled : lexer.settle? = some target)
    (inside : target.cursor.rest.length ≤ lexer.cursor.rest.length) : Reaches lexer target :=
  ⟨target, settled, inside, .refl⟩

/-! ### Settling -/

variable {lexer : Lexer} {n : Nat} {next : List Char}

/-- A token begins here, or nothing does. -/
def Begun (next : List Char) : Prop :=
  ∀ c ∈ next.head?, isGap c = false ∧ c ≠ '#' ∧ c ≠ '\ufeff'

theorem Begun.solid (begun : Begun next) : ∀ c ∈ next.head?, isGap c = false :=
  fun c member => (begun c member).1

theorem skipGap_spaces (rest : lexer.cursor.rest = spaces n ++ next) (begun : Begun next) (fuel : Nat) :
    skipGap (fuel + 1) lexer = lexer.moveTo (lexer.cursor.past (spaces n)) := by
  have noMark : lexer.cursor.seesChar '\ufeff' = false := by
    have other : (spaces n ++ next).head? ≠ some '\ufeff' := by
      cases n with
      | zero => exact fun same => (begun _ same).2.2 rfl
      | succ n => simp [spaces_succ]
    simpa [Cursor.seesChar, rest] using other
  have spanned : lexer.cursor.skipWhile (fun c => c == ' ' || ((lexer.inFlow || !lexer.keyAllowed) && c == '\t')) =
      lexer.cursor.past (spaces n) := by
    rw [Cursor.skipWhile, Cursor.spanWhile_eq_past rest (fun c member => by simp [mem_spaces member]) ?_
      fun _ => isBreak_of_mem_spaces]
    intro c member
    have solid := isBlank_of_not_isGap (begun c member).1
    simp only [isBlank, Bool.or_eq_false_iff] at solid
    simp [solid.1, solid.2]
  have behind := Cursor.rest_past rest
  have noComment : (lexer.cursor.past (spaces n)).seesChar '#' = false := by
    have other : next.head? ≠ some '#' := fun same => (begun _ same).2.1 rfl
    simpa [Cursor.seesChar, behind] using other
  have unbroken : (lexer.cursor.past (spaces n)).sees isBreak = false := by
    rw [Cursor.sees, behind]
    cases next with
    | nil => rfl
    | cons c next => exact isBreak_of_not_isGap (begun c rfl).1
  rw [skipGap]
  simp only [noMark, Bool.and_false, Bool.false_eq_true, if_false, spanned, noComment, unbroken]

theorem skipGap_line (rest : lexer.cursor.rest = '\n' :: spaces n ++ next) (begun : Begun next) (fuel : Nat) :
    skipGap (fuel + 2) lexer =
      { lexer with
        cursor := lexer.cursor.past ('\n' :: spaces n)
        keyAllowed := lexer.keyAllowed || !lexer.inFlow } := by
  have noMark : lexer.cursor.seesChar '\ufeff' = false := by simp [Cursor.seesChar, rest]
  have stays : lexer.cursor.skipWhile (fun c => c == ' ' || ((lexer.inFlow || !lexer.keyAllowed) && c == '\t')) =
      lexer.cursor := by
    refine Cursor.skipWhile_eq_self ?_
    rw [rest]
    rintro _ ⟨⟩
    simp
  have noComment : lexer.cursor.seesChar '#' = false := by simp [Cursor.seesChar, rest]
  have broken : lexer.cursor.sees isBreak = true := by
    rw [Cursor.sees, rest]
    rfl
  have behind : (lexer.cursor.past ['\n']).rest = spaces n ++ next := Cursor.rest_past rest
  rw [skipGap]
  simp only [noMark, Bool.and_false, Bool.false_eq_true, if_false, stays, noComment, broken, if_true,
    Cursor.takeBreak_eq_past rest (by decide) (by decide)]
  rw [skipGap_spaces behind begun, Cursor.past_cons _ '\n' (spaces n)]
  rfl

variable {mark keyMark : Option KeyMark} {outerMarks : List (Option KeyMark)}

theorem settle?_spaces (rest : lexer.cursor.rest = spaces n ++ next) (begun : Begun next)
    (marked : liveMark? (lexer.cursor.past (spaces n)) lexer.keyMark = some keyMark)
    (outer : lexer.outerMarks.mapM (liveMark? (lexer.cursor.past (spaces n))) = some outerMarks) :
    lexer.settle? = some (closeBlocks
      { lexer with cursor := lexer.cursor.past (spaces n), keyMark, outerMarks }
      (lexer.cursor.past (spaces n)).column) := by
  rw [settle?, skipGap_spaces rest begun, dropStaleMarks?]
  simp only [moveTo, marked, outer, Option.bind_eq_bind, Option.bind_some]
  rfl

theorem settle?_line (rest : lexer.cursor.rest = '\n' :: spaces n ++ next) (begun : Begun next)
    (marked : liveMark? (lexer.cursor.past ('\n' :: spaces n)) lexer.keyMark = some keyMark)
    (outer : lexer.outerMarks.mapM (liveMark? (lexer.cursor.past ('\n' :: spaces n))) = some outerMarks) :
    lexer.settle? = some (closeBlocks
      { lexer with
        cursor := lexer.cursor.past ('\n' :: spaces n)
        keyAllowed := lexer.keyAllowed || !lexer.inFlow
        keyMark
        outerMarks }
      n) := by
  have column : (lexer.cursor.past ('\n' :: spaces n)).column = n :=
    Cursor.column_past_indentation (by decide) lexer.cursor [] n
  have fuel : lexer.cursor.rest.length + 1 = (spaces n ++ next).length + 2 := by rw [rest]; rfl
  rw [settle?, fuel, skipGap_line rest begun, dropStaleMarks?]
  simp only [marked, outer, Option.bind_eq_bind, Option.bind_some, Option.pure_def, Option.map_some, column]

/-- A place in an earlier line, which need not have been that of a key. -/
theorem liveMark?_of_line {cursor : Cursor} (bygone : ∀ mark ∈ keyMark,
    mark.required = false ∧ mark.line < cursor.line) : liveMark? cursor keyMark = some none := by
  cases keyMark with
  | none => rfl
  | some mark =>
    obtain ⟨optional, earlier⟩ := bygone mark rfl
    simp [liveMark?, KeyMark.isStale, earlier, optional]

theorem liveMark?_of_near {cursor : Cursor} {mark : KeyMark} (line : cursor.line = mark.line)
    (near : cursor.index ≤ mark.index + 1024) : liveMark? cursor (some mark) = some (some mark) := by
  have fresh : mark.isStale cursor = false := by
    simp [KeyMark.isStale, line]
    omega
  simp [liveMark?, fresh]

/-! ### Blocks -/

/-- A lexer outside of flow collections. -/
def inBlock (cursor : Cursor) (indent : Int) (indents : List Int) (keyAllowed : Bool)
    (keyMark : Option KeyMark) (produced : List Token) : Lexer :=
  ⟨cursor, 0, indent, indents, keyAllowed, keyMark, [], produced⟩

section Blocks

variable {cursor : Cursor} {indent column : Int} {indents : List Int} {keyAllowed : Bool}
  {produced : List Token}

theorem closeBlocks_inside (inside : indent ≤ column) :
    (inBlock cursor indent indents keyAllowed keyMark produced).closeBlocks column =
      inBlock cursor indent indents keyAllowed keyMark produced := by
  cases indents with
  | nil => rfl
  | cons outer indents =>
    have going : ¬column < indent := by omega
    exact if_neg going

theorem cursor_closeFrom (column : Int) (indents : List Int) (lexer : Lexer) :
    (closeFrom column indents lexer).cursor = lexer.cursor := by
  induction indents generalizing lexer with
  | nil => rfl
  | cons outer indents ih =>
    rw [closeFrom]
    split
    · rw [ih, emit]
    · rfl

theorem cursor_closeBlocks (lexer : Lexer) (column : Int) : (lexer.closeBlocks column).cursor = lexer.cursor := by
  rw [closeBlocks]
  split
  · rfl
  · exact cursor_closeFrom column lexer.indents lexer

theorem closeBlocks_outside (outside : column < indent) (outer : Int) :
    (inBlock cursor indent (outer :: indents) keyAllowed keyMark produced).closeBlocks column =
      (inBlock cursor outer indents keyAllowed keyMark (.blockEnd :: produced)).closeBlocks column :=
  if_pos outside

/-- The block at the column is open already, or it begins with this token. From one indent, its outer ones
and the tokens before it, to those within it. -/
inductive Opens (column : Nat) (token : Token) :
    Int → List Int → List Token → List Int → List Token → Prop
  | here {indents : List Int} {produced : List Token} :
      Opens column token column indents produced indents produced
  | further {indent : Int} {indents : List Int} {produced : List Token} (further : indent < column) :
      Opens column token indent indents produced (indent :: indents) (token :: produced)

variable {k : Nat} {token : Token} {indents' : List Int} {produced' : List Token}

theorem Opens.indent_le (opens : Opens k token indent indents produced indents' produced') :
    indent ≤ k := by
  cases opens with
  | here => exact Int.le_refl _
  | further further => exact Int.le_of_lt further

theorem Opens.openBlock (opens : Opens k token indent indents produced indents' produced') :
    (inBlock cursor indent indents keyAllowed keyMark produced).openBlock k produced.length token =
      inBlock cursor k indents' keyAllowed keyMark produced' := by
  cases opens with
  | here =>
    have stays : ¬(k : Int) < k := Int.lt_irrefl _
    simp [Lexer.openBlock, inBlock, inFlow]
  | further further =>
    simp [Lexer.openBlock, inBlock, inFlow, further, emitAt]

theorem settle?_gap (rest : cursor.rest = spaces n ++ next) (begun : Begun next)
    (inside : indent ≤ cursor.column) :
    (inBlock cursor indent indents keyAllowed none produced).settle? =
      some (inBlock (cursor.past (spaces n)) indent indents keyAllowed none produced) := by
  have column : indent ≤ (cursor.past (spaces n)).column := by
    rw [Cursor.column_past_spaces]
    omega
  exact (settle?_spaces rest begun rfl rfl).trans (congrArg some (closeBlocks_inside column))

theorem settle?_marked {mark : KeyMark} (rest : cursor.rest = next) (begun : Begun next)
    (line : cursor.line = mark.line) (near : cursor.index ≤ mark.index + 1024)
    (inside : indent ≤ cursor.column) :
    (inBlock cursor indent indents keyAllowed (some mark) produced).settle? =
      some (inBlock cursor indent indents keyAllowed (some mark) produced) := by
  have live : liveMark? (cursor.past (spaces 0)) (some mark) = some (some mark) := liveMark?_of_near line near
  exact (settle?_spaces (n := 0) rest begun live rfl).trans (congrArg some (closeBlocks_inside inside))

theorem settle?_bygone (rest : cursor.rest = next) (begun : Begun next)
    (bygone : ∀ mark ∈ keyMark, mark.required = false ∧ mark.line < cursor.line) :
    (inBlock cursor indent indents keyAllowed keyMark produced).settle? =
      some ((inBlock cursor indent indents keyAllowed none produced).closeBlocks cursor.column) :=
  settle?_spaces (n := 0) rest begun (liveMark?_of_line bygone) rfl

theorem settle?_lineEnd (rest : cursor.rest = '\n' :: spaces n ++ next) (begun : Begun next)
    (bygone : ∀ mark ∈ keyMark, mark.required = false ∧ mark.line ≤ cursor.line) :
    (inBlock cursor indent indents keyAllowed keyMark produced).settle? =
      some ((inBlock (cursor.past ('\n' :: spaces n)) indent indents true none produced).closeBlocks n) := by
  have earlier : cursor.line < (cursor.past ('\n' :: spaces n)).line := Cursor.line_lt_past (by decide) _
  have dropped : liveMark? (cursor.past ('\n' :: spaces n)) keyMark = some none :=
    liveMark?_of_line fun mark member => ⟨(bygone mark member).1, Nat.lt_of_le_of_lt (bygone mark member).2 earlier⟩
  have allowed : (keyAllowed || !(inBlock cursor indent indents keyAllowed keyMark produced).inFlow) = true :=
    Bool.or_true keyAllowed
  have settled : (inBlock cursor indent indents keyAllowed keyMark produced).settle? = some _ :=
    settle?_line rest begun dropped rfl
  rw [settled]
  exact congrArg some (congrArg (closeBlocks · n) (congrArg (inBlock _ indent indents · none produced) allowed))

theorem reaches_space {target : Lexer} (rest : cursor.rest = ' ' :: next) (begun : Begun next)
    (inside : indent ≤ cursor.column)
    (goes : Goes (inBlock (cursor.past [' ']) indent indents keyAllowed none produced) target) :
    Reaches (inBlock cursor indent indents keyAllowed none produced) target := by
  have here : cursor.rest = [' '] ++ next := rest
  have shorter := Cursor.length_past_lt here (by simp)
  exact ⟨_, settle?_gap (n := 1) rest begun inside, Nat.le_of_lt shorter, goes⟩

/-- A place behind the end of a line already. -/
theorem reaches_bygone (rest : cursor.rest = next) (begun : Begun next)
    (bygone : ∀ mark ∈ keyMark, mark.required = false ∧ mark.line < cursor.line) (column : cursor.column = n) :
    Reaches (inBlock cursor indent indents keyAllowed keyMark produced)
      ((inBlock cursor indent indents keyAllowed none produced).closeBlocks n) := by
  subst column
  refine .here (settle?_bygone rest begun bygone) ?_
  rw [cursor_closeBlocks]
  exact Nat.le_refl _

/-- The end of a line, at which the blocks are closed that the next line is not in. -/
theorem reaches_lineEnd (rest : cursor.rest = '\n' :: spaces n ++ next) (begun : Begun next)
    (bygone : ∀ mark ∈ keyMark, mark.required = false ∧ mark.line ≤ cursor.line) :
    ∃ after, after.rest = next ∧ after.column = n ∧
      Reaches (inBlock cursor indent indents keyAllowed keyMark produced)
        ((inBlock after indent indents true none produced).closeBlocks n) := by
  have behind := Cursor.rest_past rest
  refine ⟨cursor.past ('\n' :: spaces n), behind, ?_, .here (settle?_lineEnd rest begun bygone) ?_⟩
  · exact Cursor.column_past_indentation (by decide) cursor [] n
  · have shorter := Cursor.length_past rest
    rw [cursor_closeBlocks]
    exact Nat.le_of_add_right_le (Nat.le_of_eq shorter)

end Blocks

end Lexer

end DataBind.Yaml
