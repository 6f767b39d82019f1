import DataBind.Yaml.Token

/-!
# From tokens to nodes

A node is a scalar, a sequence, a mapping or an alias. `documents?` reads the nodes of all
documents of a text. What is left out between tokens is an empty plain scalar.
-/

namespace DataBind.Yaml

/-- Aliases refer to anchored nodes by a `ρ`: by name in a text, by number once the names are
settled. -/
structure Properties (ρ : Type) where
  anchor : Option ρ
  tag : Option String
deriving DecidableEq, Repr

def Properties.bare {ρ : Type} : Properties ρ := ⟨none, none⟩

inductive Node (ρ : Type)
  | alias (target : ρ)
  | scalar (properties : Properties ρ) (style : ScalarStyle) (text : String)
  | sequence (properties : Properties ρ) (items : List (Node ρ))
  | mapping (properties : Properties ρ) (pairs : List (Node ρ × Node ρ))
deriving Repr

def Node.empty {ρ : Type} : Node ρ :=
  .scalar Properties.bare .plain ""

/-- Tag handles and what they stand for. -/
abbrev TagHandles := List (String × String)

def defaultHandles : TagHandles := [("!", "!"), ("!!", "tag:yaml.org,2002:")]

/-- The full tag; an unknown handle is refused. -/
def resolveTag? (handles : TagHandles) (handle tail : String) : Option String :=
  if handle = "" then some tail
  else (handles.find? fun entry => entry.1 == handle).map fun entry => entry.2 ++ tail

/-- An anchor and a tag, either or both, in any order. -/
def properties? (handles : TagHandles) : List Token → Option (Properties String × List Token)
  | .anchor name :: .tag handle tail :: rest =>
    (resolveTag? handles handle tail).map fun tag => (⟨some name, some tag⟩, rest)
  | .anchor name :: rest => some (⟨some name, none⟩, rest)
  | .tag handle tail :: .anchor name :: rest =>
    (resolveTag? handles handle tail).map fun tag => (⟨some name, some tag⟩, rest)
  | .tag handle tail :: rest =>
    (resolveTag? handles handle tail).map fun tag => (⟨none, some tag⟩, rest)
  | tokens => some (Properties.bare, tokens)

/-- The tokens begin with one of these, so that a node before them was left out. -/
def begins (tokens : List Token) (stops : List Token) : Bool :=
  match tokens with
  | token :: _ => stops.contains token
  | [] => false

/-- Where a node is looked for. -/
inductive Place
  | flow
  | block
  /-- A key or value of a block mapping, where a sequence need not be indented. -/
  | blockPair
deriving DecidableEq, Repr

mutual

/-- Each step down takes one unit of fuel. -/
def node? (handles : TagHandles) : Nat → Place → List Token → Option (Node String × List Token)
  | 0, _, _ => none
  | fuel + 1, place, tokens =>
    match tokens with
    | .alias name :: rest => some (.alias name, rest)
    | _ =>
      match properties? handles tokens with
      | none => none
      | some (properties, tokens) =>
        match tokens, place with
        | .blockEntry :: _, .blockPair =>
          (plainItems? handles fuel tokens).map fun (items, rest) =>
            (.sequence properties items, rest)
        | .scalar style text :: rest, _ => some (.scalar properties style text, rest)
        | .flowSequenceStart :: rest, _ =>
          (flowItems? handles fuel true rest).map fun (items, rest) =>
            (.sequence properties items, rest)
        | .flowMappingStart :: rest, _ =>
          (flowPairs? handles fuel true rest).map fun (pairs, rest) =>
            (.mapping properties pairs, rest)
        | .blockSequenceStart :: rest, .block | .blockSequenceStart :: rest, .blockPair =>
          (blockItems? handles fuel rest).map fun (items, rest) =>
            (.sequence properties items, rest)
        | .blockMappingStart :: rest, .block | .blockMappingStart :: rest, .blockPair =>
          (blockPairs? handles fuel rest).map fun (pairs, rest) =>
            (.mapping properties pairs, rest)
        | tokens, _ =>
          if properties = Properties.bare then none
          else some (.scalar properties .plain "", tokens)

/-- A node, or an empty one before the given tokens. -/
def nodeBefore? (handles : TagHandles) :
    Nat → Place → List Token → List Token → Option (Node String × List Token)
  | 0, _, _, _ => none
  | fuel + 1, place, stops, tokens =>
    if begins tokens stops then some (.empty, tokens) else node? handles fuel place tokens

/-- Items of an indented block sequence up to its end. -/
def blockItems? (handles : TagHandles) :
    Nat → List Token → Option (List (Node String) × List Token)
  | 0, _ => none
  | fuel + 1, tokens =>
    match tokens with
    | .blockEntry :: rest =>
      match nodeBefore? handles fuel .block [.blockEntry, .blockEnd] rest with
      | none => none
      | some (item, rest) =>
        (blockItems? handles fuel rest).map fun (items, rest) => (item :: items, rest)
    | .blockEnd :: rest => some ([], rest)
    | _ => none

/-- Items of a block sequence that is not indented; any other token ends it. -/
def plainItems? (handles : TagHandles) :
    Nat → List Token → Option (List (Node String) × List Token)
  | 0, _ => none
  | fuel + 1, tokens =>
    match tokens with
    | .blockEntry :: rest =>
      match nodeBefore? handles fuel .block [.blockEntry, .key, .value, .blockEnd] rest with
      | none => none
      | some (item, rest) =>
        (plainItems? handles fuel rest).map fun (items, rest) => (item :: items, rest)
    | tokens => some ([], tokens)

def blockPairs? (handles : TagHandles) :
    Nat → List Token → Option (List (Node String × Node String) × List Token)
  | 0, _ => none
  | fuel + 1, tokens =>
    match tokens with
    | .key :: rest =>
      match nodeBefore? handles fuel .blockPair [.key, .value, .blockEnd] rest with
      | none => none
      | some (key, rest) =>
        match valueAfter? handles fuel .blockPair [.key, .value, .blockEnd] rest with
        | none => none
        | some (value, rest) =>
          (blockPairs? handles fuel rest).map fun (pairs, rest) => ((key, value) :: pairs, rest)
    | .blockEnd :: rest => some ([], rest)
    | _ => none

/-- A value after its token; without the token it is empty. -/
def valueAfter? (handles : TagHandles) :
    Nat → Place → List Token → List Token → Option (Node String × List Token)
  | 0, _, _, _ => none
  | fuel + 1, place, stops, tokens =>
    match tokens with
    | .value :: rest => nodeBefore? handles fuel place stops rest
    | tokens => some (.empty, tokens)

def flowItems? (handles : TagHandles) :
    Nat → Bool → List Token → Option (List (Node String) × List Token)
  | 0, _, _ => none
  | fuel + 1, first, tokens =>
    match tokens with
    | .flowSequenceEnd :: rest => some ([], rest)
    | _ =>
      match afterComma? first tokens with
      | none => none
      | some (.flowSequenceEnd :: rest) => some ([], rest)
      | some (.key :: rest) =>
        match singleKey? handles fuel rest with
        | none => none
        | some (key, rest) =>
          match valueAfter? handles fuel .flow [.flowEntry, .flowSequenceEnd] rest with
          | none => none
          | some (value, rest) =>
            (flowItems? handles fuel false rest).map fun (items, rest) =>
              (.mapping Properties.bare [(key, value)] :: items, rest)
      | some tokens =>
        match node? handles fuel .flow tokens with
        | none => none
        | some (item, rest) =>
          (flowItems? handles fuel false rest).map fun (items, rest) => (item :: items, rest)

/-- The key of a pair that stands by itself in a flow sequence. An empty key takes the token after
it along. -/
def singleKey? (handles : TagHandles) :
    Nat → List Token → Option (Node String × List Token)
  | 0, _ => none
  | fuel + 1, tokens =>
    if begins tokens [.value, .flowEntry, .flowSequenceEnd] then some (.empty, tokens.drop 1)
    else node? handles fuel .flow tokens

def flowPairs? (handles : TagHandles) :
    Nat → Bool → List Token → Option (List (Node String × Node String) × List Token)
  | 0, _, _ => none
  | fuel + 1, first, tokens =>
    match tokens with
    | .flowMappingEnd :: rest => some ([], rest)
    | _ =>
      match afterComma? first tokens with
      | none => none
      | some (.flowMappingEnd :: rest) => some ([], rest)
      | some (.key :: rest) =>
        match nodeBefore? handles fuel .flow [.value, .flowEntry, .flowMappingEnd] rest with
        | none => none
        | some (key, rest) =>
          match valueAfter? handles fuel .flow [.flowEntry, .flowMappingEnd] rest with
          | none => none
          | some (value, rest) =>
            (flowPairs? handles fuel false rest).map fun (pairs, rest) =>
              ((key, value) :: pairs, rest)
      | some tokens =>
        match node? handles fuel .flow tokens with
        | none => none
        | some (key, rest) =>
          (flowPairs? handles fuel false rest).map fun (pairs, rest) =>
            ((key, .empty) :: pairs, rest)

/-- Entries of a flow collection but the first follow a comma. -/
def afterComma? (first : Bool) (tokens : List Token) : Option (List Token) :=
  if first then some tokens
  else match tokens with
    | .flowEntry :: rest => some rest
    | _ => none

end

/-! ### Documents -/

/-- Directives before a document: one version at most, `1.1` or `1.2`, and each handle once. -/
def directives? (versioned : Bool) (handles : TagHandles) :
    List Token → Option (TagHandles × List Token)
  | .versionDirective major minor :: rest =>
    if versioned || major != 1 || (minor != 1 && minor != 2) then none
    else directives? true handles rest
  | .tagDirective handle start :: rest =>
    if handles.any fun entry => entry.1 == handle then none
    else directives? versioned (handles ++ [(handle, start)]) rest
  | tokens => some (handles ++ defaultHandles, tokens)

def isDirective : Token → Bool
  | .versionDirective _ _ | .tagDirective _ _ => true
  | _ => false

/-- What stands after the marker that begins a document. -/
def content? (handles : TagHandles) (fuel : Nat) (tokens : List Token) :
    Option (Node String × List Token) :=
  match tokens with
  | [] => some (.empty, [])
  | token :: _ =>
    if isDirective token || token == .documentStart || token == .documentEnd then
      some (.empty, tokens)
    else node? handles fuel .block tokens

def afterDocumentEnd : List Token → List Token
  | .documentEnd :: rest => rest
  | tokens => tokens

/-- Only the first document may begin without a marker. -/
def documentsFrom? (fuel : Nat) : Nat → Bool → List Token → Option (List (Node String))
  | 0, _, _ => none
  | left + 1, first, tokens =>
    let tokens := if first then tokens else tokens.dropWhile (· == .documentEnd)
    match tokens with
    | [] => some []
    | token :: _ =>
      let read :=
        if first && !isDirective token && token != .documentStart then
          node? defaultHandles fuel .block tokens
        else match directives? false [] tokens with
          | some (handles, .documentStart :: rest) => content? handles fuel rest
          | _ => none
      match read with
      | none => none
      | some (root, rest) =>
        (documentsFrom? fuel left false (afterDocumentEnd rest)).map (root :: ·)

def documents? (tokens : List Token) : Option (List (Node String)) :=
  documentsFrom? (3 * tokens.length + 8) (tokens.length + 1) true tokens

end DataBind.Yaml
