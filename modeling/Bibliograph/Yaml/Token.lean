/-!
# Tokens of documents

Main definitions:

* `Yaml.TagName`: a tag as it is written;
* `Yaml.Directive`: a line that says something about the document below it;
* `Yaml.Token`, `Yaml.Lexeme`: the tokens, with the lines on which they start.
-/

set_option autoImplicit false

namespace Bibliograph.Yaml

/-- A tag as it is written: a suffix behind the handle of a declared beginning, or a whole tag. -/
structure TagName where
  handle : Option String
  suffix : String
  deriving Repr, DecidableEq

/-- A line that says something about the document below it. -/
inductive Directive where
  | version (major : Nat)
  | tag (handle beginning : String)
  | unknown
  deriving Repr, DecidableEq

/-- The kinds of tokens.  Collections that are written by indentation have tokens for their start
and their end like those in brackets. -/
inductive Token where
  | directive (d : Directive)
  | documentStart
  | documentEnd
  | blockSequence
  | blockMapping
  | blockEnd
  | flowSequence
  | flowSequenceEnd
  | flowMapping
  | flowMappingEnd
  | key
  | value
  | blockEntry
  | flowEntry
  | reference (name : String)
  | anchor (name : String)
  | tag (t : TagName)
  | scalar (text : String) (plain : Bool)
  deriving Repr, DecidableEq

/-- A token with the line on which it starts. -/
structure Lexeme where
  token : Token
  line : Nat
  deriving Repr, DecidableEq

end Bibliograph.Yaml
