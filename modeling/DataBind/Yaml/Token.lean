/-!
# Tokens

A YAML text is a sequence of tokens. Block collections have tokens for their start and end, which
come from the indentation, and a key has a token in front of it.
-/

namespace DataBind.Yaml

inductive ScalarStyle
  | plain
  | singleQuoted
  | doubleQuoted
  | literal
  | folded
deriving DecidableEq, Repr

inductive Token
  | versionDirective (major minor : Nat)
  | tagDirective (handle start : String)
  | documentStart
  | documentEnd
  | blockSequenceStart
  | blockMappingStart
  | blockEnd
  | flowSequenceStart
  | flowSequenceEnd
  | flowMappingStart
  | flowMappingEnd
  | blockEntry
  | flowEntry
  | key
  | value
  | alias (name : String)
  | anchor (name : String)
  | tag (handle tail : String)
  | scalar (style : ScalarStyle) (text : String)
deriving DecidableEq, Repr

end DataBind.Yaml
