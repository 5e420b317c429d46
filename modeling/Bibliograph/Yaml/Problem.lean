import Bibliograph.Number.Written

/-!
# Problems of documents

Main definitions:

* `Yaml.Problem`: why a text is no document, or why the document stands for no data;
* `Yaml.Problem.message`: what is said about it.
-/

set_option autoImplicit false

namespace Bibliograph.Yaml

/-- Why a text is no document, or why the document stands for no data. -/
inductive Problem where
  | unprintable (c : Char)
  | noToken (c : Char)
  | entryNotAllowed
  | keyNotAllowed
  | valueNotAllowed
  | keyWithoutValue
  | unexpectedClose
  | unclosedQuote
  | separatorInQuote
  | badEscape
  | badHeader
  | badName
  | badTag
  | badDirective
  | expected (what : String)
  | undefinedAlias (name : String)
  | repeatedAnchor (name : String)
  | undefinedHandle (handle : String)
  | severalDocuments
  | unknownTag
  | wrongKind (what : String)
  | noSuchScalar (text : String)
  | tooManyDigits (count : Nat)
  | badMerge
  | collectionAsKey
  deriving Repr, DecidableEq

/-- What is said about a problem. -/
def Problem.message : Problem → String
  | unprintable _ => "the text holds a character that is not allowed"
  | noToken c => "no token starts with the character " ++ c.toString
  | entryNotAllowed => "a sequence entry is not allowed here"
  | keyNotAllowed => "a mapping key is not allowed here"
  | valueNotAllowed => "a mapping value is not allowed here"
  | keyWithoutValue => "the key of a mapping has no value"
  | unexpectedClose => "nothing is open that could be closed here"
  | unclosedQuote => "a quoted text does not end"
  | separatorInQuote => "a document separator stands in a quoted text"
  | badEscape => "an escape in a quoted text is unknown"
  | badHeader => "the first line of a block text is malformed"
  | badName => "an anchor or alias has no proper name"
  | badTag => "a tag is malformed"
  | badDirective => "a directive is malformed"
  | expected what => "expected " ++ what
  | undefinedAlias name => "the alias " ++ name ++ " is not defined"
  | repeatedAnchor name => "the anchor " ++ name ++ " is defined twice"
  | undefinedHandle handle => "the tag handle " ++ handle ++ " is not defined"
  | severalDocuments => "expected a single document"
  | unknownTag => "no data can be made for the tag of a node"
  | wrongKind what => "expected a " ++ what
  | noSuchScalar text => "there is no such value as " ++ text
  | tooManyDigits count => Number.unreadable count
  | badMerge => "only mappings can be merged"
  | collectionAsKey => "a collection cannot be a key"

end Bibliograph.Yaml
