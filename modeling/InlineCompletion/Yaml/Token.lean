import InlineCompletion.Yaml.Property

/-!
# Tokens of a settings file

Layout by indentation is told by tokens as well as layout by brackets: a
collection starts with a token, and ends with one.
-/

namespace InlineCompletion
namespace Yaml

inductive Token where
  | directive (d : Directive)
  | documentStart
  | documentEnd
  | fileEnd
  /-- A collection by indentation starts. -/
  | blockSequence
  | blockMapping
  /-- A collection by indentation ends. -/
  | blockEnd
  /-- A collection in brackets starts. -/
  | flowSequence
  | flowMapping
  | flowSequenceEnd
  | flowMappingEnd
  /-- An item by indentation starts. -/
  | item
  /-- An item in brackets ends, and another may follow. -/
  | separator
  | key
  | value
  | alias (name : Text)
  | anchor (name : Text)
  | tag (t : TagName)
  | scalar (t : Text) (isPlain : Bool)
  deriving DecidableEq, Repr

end Yaml
end InlineCompletion
