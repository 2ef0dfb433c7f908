import RunJournal.Yaml.Text
/-!
# YAML tokens

The scanner cuts a text into tokens: the markers of the stream and of documents, directives, the
indicators of block and flow collections, keys and values, anchors, aliases, tags and scalars. A
block collection has no written start or end; the scanner makes those tokens from the indentation.

Tag handles are written in letters, so they are text; a tag's other part may spell bytes in `%`
escapes, so it is kept as bytes.
-/

namespace RunJournal

namespace Yaml

/-- How a scalar is written. -/
inductive ScalarStyle where
  | plain
  | singleQuoted
  | doubleQuoted
  | literal
  | folded
  deriving DecidableEq, Repr, Inhabited

/-- What a token is. -/
inductive TokenKind where
  | streamStart
  | streamEnd
  /-- `%YAML major.minor`. -/
  | versionDirective (major minor : Nat)
  /-- `%TAG handle uri`. -/
  | tagDirective (handle : String) (uri : List UInt8)
  | documentStart
  | documentEnd
  | blockSequenceStart
  | blockMappingStart
  | blockEnd
  | flowSequenceStart
  | flowSequenceEnd
  | flowMappingStart
  | flowMappingEnd
  | blockEntry
  | flowEntry
  | key
  | value
  | alias (name : String)
  | anchor (name : String)
  /-- A tag: its handle (empty for a verbatim tag) and the rest. -/
  | tag (handle : String) (suffix : List UInt8)
  | scalar (text : String) (style : ScalarStyle)
  deriving DecidableEq, Repr, Inhabited

/-- A token and the places it starts and ends at. -/
structure Token where
  kind : TokenKind
  start : Mark
  stop : Mark
  deriving Repr, Inhabited

def bytesOf (s : String) : List UInt8 := s.toUTF8.toList

end Yaml

end RunJournal
