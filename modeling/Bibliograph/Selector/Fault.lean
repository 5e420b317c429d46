import Bibliograph.Number.Written
import Bibliograph.Text.Quoted

/-!
# Faults in selectors

Main definitions:

* `Selector.Fault`: what can be wrong with a selector;
* `Selector.SelectorError`: a fault at an offset of a text;
* `Selector.SelectorError.message`, `Selector.SelectorError.caret`: how it is reported.

Main results:

* `Selector.maxDepth_pos`: some selectors are not too deep.
-/

set_option autoImplicit false

namespace Bibliograph.Selector

/-- Syntax trees may not be higher than this. -/
def maxDepth : Nat := 200

theorem maxDepth_pos : 0 < maxDepth := by decide

/-- What can be wrong with a selector. -/
inductive Fault where
  | empty
  | unexpectedCharacter (c : Char)
  | unexpectedToken (text : String)
  | emptyName
  | unexpectedEnd
  | unbalancedParentheses
  | unknownEntryType (name : String)
  | duplicateBinding (name : String)
  | tooDeep
  deriving Repr, DecidableEq

namespace Fault

/-- The fault in general words. -/
def phrase : Fault → String
  | empty => "empty selector"
  | unexpectedCharacter _ => "unexpected character"
  | unexpectedToken _ => "unexpected token"
  | emptyName => "unexpected token"
  | unexpectedEnd => "unexpected end of selector"
  | unbalancedParentheses => "unbalanced parentheses"
  | unknownEntryType _ => "unknown entry type"
  | duplicateBinding _ => "capture name bound twice"
  | tooDeep => "selector nested too deeply"

/-- What the fault is about; empty if there is nothing to say. -/
def detail : Fault → String
  | unexpectedCharacter c => Text.quoted (String.ofList [c])
  | unexpectedToken text => Text.quoted text
  | emptyName => "empty name"
  | unknownEntryType name => name
  | duplicateBinding name => name
  | tooDeep => "more than " ++ Number.decimal maxDepth ++ " levels"
  | _ => ""

end Fault

/-- A fault at an offset of a text, counted in characters. -/
structure SelectorError where
  fault : Fault
  offset : Nat
  source : String
  deriving Repr, DecidableEq

/-- The error in one line. -/
def SelectorError.message (e : SelectorError) : String :=
  let detail := if e.fault.detail = "" then "" else " (" ++ e.fault.detail ++ ")"
  e.fault.phrase ++ detail ++ " at offset " ++ Number.decimal e.offset

/-- The text with a caret under the place of the fault. -/
def SelectorError.caret (e : SelectorError) : String :=
  e.source ++ "\n" ++ String.ofList (List.replicate e.offset ' ' ++ ['^'])

end Bibliograph.Selector
