import DataBind.Proofs.Payloads

/-!
# Payloads that are read back

What reading a payload can give. Names stand between separators, so they hold none, and what holds none
is read back from its text. The other way round, every payload that is read is written as it was.
-/

namespace DataBind

/-- What is left of a payload after it was cut at all its separators. -/
structure DataBound.Readable (data : DataBound) : Prop where
  model : ∀ model, data.model = some model → '#' ∉ model.toList
  nonempty : data.attributes ≠ []
  named : data.attributes ≠ [""]
  attributes : ∀ name ∈ data.attributes, '+' ∉ name.toList ∧ '|' ∉ name.toList
  unqualified : data.model = none → ∀ name ∈ data.attributes, '#' ∉ name.toList
  filters : ∀ filter ∈ data.filters, FunctionName filter.name

theorem Text.not_mem_intercalate {sep c : Char} (other : c ≠ sep) {texts : List String} :
    c ∉ ((String.singleton sep).intercalate texts).toList ↔ ∀ text ∈ texts, c ∉ text.toList := by
  induction texts with
  | nil => simp
  | cons text rest ih =>
    cases rest with
    | nil => simp
    | cons next rest =>
      rw [String.intercalate_cons_cons, String.toList_append, String.toList_append,
        String.toList_singleton, List.forall_mem_cons, ← ih]
      simp [other]

namespace DataBound

def head (data : DataBound) : String :=
  "+".intercalate data.attributes

theorem not_mem_head {data : DataBound} {c : Char} (plus : c ≠ '+') :
    c ∉ data.head.toList ↔ ∀ name ∈ data.attributes, c ∉ name.toList :=
  Text.not_mem_intercalate plus

def tokens (data : DataBound) : List String :=
  data.filters.map Filter.text

/-- The text of a payload without its model. -/
def expression (data : DataBound) : String :=
  "|".intercalate (data.head :: data.tokens)

theorem text_eq (data : DataBound) :
    data.text = (match data.model with
      | some model => model ++ "#"
      | none => "") ++ data.expression := by
  have bars : data.tokens.map ("|" ++ ·) = data.filters.map fun filter => "|" ++ filter.text := by
    rw [tokens, List.map_map]
    rfl
  rw [expression, intercalate_cons_eq_join, bars, ← String.append_assoc]
  rfl

theorem not_mem_expression {data : DataBound}
    (named : ∀ filter ∈ data.filters, FunctionName filter.name) {c : Char}
    (outside : Filter.isTextChar c = false) (bar : c ≠ '|') :
    c ∉ data.expression.toList ↔ ∀ name ∈ data.attributes, c ∉ name.toList := by
  have plus : c ≠ '+' := by
    rintro rfl
    cases outside
  have free : ∀ token ∈ data.tokens, c ∉ token.toList :=
    List.forall_mem_map.mpr fun filter member => Filter.not_mem_text (named filter member) outside
  have split : c ∉ data.expression.toList ↔ ∀ part ∈ data.head :: data.tokens, c ∉ part.toList :=
    Text.not_mem_intercalate bar
  rw [split, List.forall_mem_cons, not_mem_head plus]
  exact and_iff_left free

theorem not_mem_text {data : DataBound}
    (named : ∀ filter ∈ data.filters, FunctionName filter.name) {c : Char}
    (outside : Filter.isTextChar c = false) (bar : c ≠ '|') (hash : c ≠ '#') :
    c ∉ data.text.toList ↔
      (∀ model, data.model = some model → c ∉ model.toList) ∧
        ∀ name ∈ data.attributes, c ∉ name.toList := by
  rw [text_eq, ← not_mem_expression named outside bar]
  cases data.model <;> simp [hash]

/-! ### Reading back -/

theorem readable_of_parse {payload : String} {data : DataBound} (h : parse payload = .ok data) :
    data.Readable := by
  obtain ⟨expression, head, tokens, filters, parts, named, read, rfl⟩ := parse_eq_ok.mp h
  obtain ⟨same, pieces⟩ := payloadParts_iff.mp parts
  have inHead : ∀ name ∈ Text.pieces '+' head, name.toList <:+: head.toList :=
    fun _ => Text.isInfix_of_mem_pieces
  have inExpression : head.toList <:+: expression.toList :=
    Text.isInfix_of_mem_pieces (pieces ▸ List.mem_cons_self)
  constructor
  case model =>
    intro model qualified
    rcases payload_cases payload with free | ⟨name, rest, free, rfl⟩
    · simp [modelQualifier_unqualified free] at qualified
    · simp only [modelQualifier_qualified free, Option.some.injEq] at qualified
      exact qualified ▸ free
  case nonempty => exact Text.pieces_ne_nil '+' head
  case named =>
    intro single
    have joined : "+".intercalate (Text.pieces '+' head) = head := Text.intercalate_pieces '+' head
    have empty : Text.pieces '+' head = [""] := single
    rw [empty, String.intercalate_singleton] at joined
    exact named joined.symm
  case attributes =>
    intro name member
    have free : '|' ∉ head.toList := parts.free head List.mem_cons_self
    exact ⟨Text.not_mem_of_mem_pieces member, fun bar => free ((inHead name member).subset bar)⟩
  case unqualified =>
    intro unqualified name member hash
    rcases payload_cases payload with free | ⟨model, rest, free, rfl⟩
    · rw [modelQualifier_unqualified free] at same
      subst same
      exact free (((inHead name member).trans inExpression).subset hash)
    · simp [modelQualifier_qualified free] at unqualified
  case filters => exact (Filter.mapM_parse_eq_ok.mp read).2

namespace Readable

variable {data : DataBound} (readable : data.Readable)
include readable

theorem pieces_head : Text.pieces '+' data.head = data.attributes :=
  Text.pieces_intercalate (fun name member => (readable.attributes name member).1) readable.nonempty

theorem head_ne_empty : data.head ≠ "" := by
  intro empty
  have pieces : Text.pieces '+' data.head = data.attributes := readable.pieces_head
  rw [empty] at pieces
  exact readable.named pieces.symm

theorem modelQualifier_text : modelQualifier data.text = (data.model, data.expression) := by
  rw [text_eq]
  cases qualified : data.model with
  | none =>
    have free : '#' ∉ data.expression.toList :=
      (not_mem_expression readable.filters rfl (by decide)).mpr (readable.unqualified qualified)
    rw [String.empty_append, modelQualifier_unqualified free]
  | some model => rw [modelQualifier_qualified (readable.model model qualified)]

theorem parts : PayloadParts data.text data.expression data.head data.tokens := by
  refine ⟨expressionOf_iff.mpr ?_, rfl, List.forall_mem_cons.mpr ⟨?_, ?_⟩⟩
  · rw [readable.modelQualifier_text]
  · exact (not_mem_head (by decide)).mpr fun name member => (readable.attributes name member).2
  · exact List.forall_mem_map.mpr fun filter member =>
      Filter.not_mem_text (readable.filters filter member) rfl

end Readable

/-- A payload is read back from its text exactly if its parts hold no separators. -/
theorem parse_text_eq_ok {data : DataBound} : parse data.text = .ok data ↔ data.Readable := by
  refine ⟨readable_of_parse, fun readable => ?_⟩
  have filters : data.tokens.mapM Filter.parse = .ok data.filters :=
    Filter.mapM_parse_eq_ok.mpr ⟨rfl, readable.filters⟩
  refine parse_eq_ok.mpr ⟨_, _, _, _, readable.parts, readable.head_ne_empty, filters, ?_⟩
  rw [readable.modelQualifier_text, readable.pieces_head]

end DataBound

/-- Writing what a payload was read as gives the payload back, so different accepted payloads are read
differently; and data are read back from their text exactly if none of their parts would be cut. -/
theorem payloads_round_trip :
    (∀ payload data, DataBound.parse payload = .ok data → data.text = payload) ∧
    (∀ payload other data otherData, DataBound.parse payload = .ok data →
      DataBound.parse other = .ok otherData → payload ≠ other → data ≠ otherData) ∧
    ∀ data : DataBound, DataBound.parse data.text = .ok data ↔ data.Readable := by
  refine ⟨fun payload data => DataBound.text_of_parse, ?_, fun data => DataBound.parse_text_eq_ok⟩
  rintro payload other data otherData read readOther different rfl
  have text : data.text = payload := DataBound.text_of_parse read
  have otherText : data.text = other := DataBound.text_of_parse readOther
  exact different (text.symm.trans otherText)

/-- A bar in front of the `#` belongs to the model, and a second `#` to an attribute. -/
def barredData : DataBound where
  model := some "n|bogus"
  attributes := ["x#y", "", "z w"]
  filters := [⟨"f_1", .formatter, .model⟩, ⟨"f_1", .filter, .dom⟩]

theorem payloads_round_trip_barred :
    DataBound.parse "n|bogus#x#y++z w|f_1+|-f_1" = .ok barredData ∧
      barredData.text = "n|bogus#x#y++z w|f_1+|-f_1" ∧ barredData.Readable ∧
      DataBound.parse "n|+f_1" = .ok ⟨none, ["n"], [⟨"f_1", .formatter, .dom⟩]⟩ ∧
      barredData ≠ ⟨none, ["n"], [⟨"f_1", .formatter, .dom⟩]⟩ ∧
      ¬DataBound.Readable ⟨none, ["x#y"], []⟩ := by
  have read : DataBound.parse "n|bogus#x#y++z w|f_1+|-f_1" = .ok barredData := by decide +kernel
  have plain : DataBound.parse "n|+f_1" = .ok ⟨none, ["n"], [⟨"f_1", .formatter, .dom⟩]⟩ := by decide +kernel
  have cut : DataBound.parse (DataBound.text ⟨none, ["x#y"], []⟩) ≠ .ok ⟨none, ["x#y"], []⟩ := by decide +kernel
  obtain ⟨written, apart, readBack⟩ := payloads_round_trip
  have text : barredData.text = "n|bogus#x#y++z w|f_1+|-f_1" := written _ _ read
  exact ⟨read, text, (readBack barredData).mp (text.symm ▸ read), plain,
    apart _ _ _ _ read plain (by decide), mt (readBack _).mpr cut⟩

end DataBind
