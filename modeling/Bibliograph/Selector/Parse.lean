import Bibliograph.Selector.Depth
import Bibliograph.Selector.Draft
import Bibliograph.Selector.Fault
import Bibliograph.Selector.Parentheses

/-!
# From text to selectors

The checks on a text come in this order: it is not blank, its parentheses match, it is a selector
of the grammar, its syntax tree is not too high, every type is known and every name nonempty, and
no capture name is bound twice.

The height of the syntax tree is limited, but that of the expression is not: every field of a list
of fields adds a level to it.  Functions on expressions call themselves as often as there are
levels, and such calls are not limited here.  An interpreter's call stack may end before that, at
about a thousand fields.

Main definitions:

* `Selector.parseTree`: the syntax tree of a text;
* `Selector.Tree.sortedCaptures`: the capture names of a tree by their offsets;
* `Selector.parseExpr`: the expression of a text;
* `Selector.Query`: an expression with its text, and no capture name bound twice;
* `Selector.Query.parse`, `Selector.Query.ofExpr`: queries from texts and from expressions.

Main results:

* `Selector.parseExpr_eq_ok_iff`: when a text is accepted, and the expression it means;
* `Selector.firstRepeated?_eq_none_iff`: nothing is repeated exactly in a list without duplicates.
-/

set_option autoImplicit false

namespace Bibliograph.Selector

/-! ### Repeated names -/

/-- The first pair whose name was seen before. -/
def firstRepeated? (seen : List String) : List (String × Nat) → Option (String × Nat)
  | [] => none
  | p :: ps => if p.1 ∈ seen then some p else firstRepeated? (p.1 :: seen) ps

theorem firstRepeated?_eq_none_iff (seen : List String) (ps : List (String × Nat)) :
    firstRepeated? seen ps = none ↔
      (ps.map Prod.fst).Nodup ∧ ∀ p ∈ ps, p.1 ∉ seen := by
  induction ps generalizing seen with
  | nil => simp [firstRepeated?]
  | cons p ps ih =>
    by_cases h : p.1 ∈ seen
    · simp [firstRepeated?, h]
    · simp only [firstRepeated?, h, if_false, ih, List.mem_cons, not_or, List.map_cons,
        List.nodup_cons, List.mem_map, not_exists, not_and, forall_eq_or_imp, not_false_eq_true,
        true_and]
      constructor
      · rintro ⟨hn, hs⟩
        exact ⟨⟨fun q hq e => (hs q hq).1 e, hn⟩, fun q hq => (hs q hq).2⟩
      · rintro ⟨⟨hp, hn⟩, hs⟩
        exact ⟨hn, fun q hq => ⟨fun e => hp q hq e, hs q hq⟩⟩

/-- The capture names of a tree, sorted by the offsets at which they are written. -/
def Tree.sortedCaptures (t : Tree) : List (String × Nat) :=
  t.collected.mergeSort fun p q => decide (p.2 ≤ q.2)

/-- Sorting loses no name. -/
theorem Tree.nodup_sortedCaptures_iff (t : Tree) :
    (t.sortedCaptures.map Prod.fst).Nodup ↔ (t.captures.map Prod.fst).Nodup :=
  (((List.mergeSort_perm _ _).trans t.collected_perm).map Prod.fst).nodup_iff

/-! ### Reading a text -/

/-- Where a fault of a syntax tree is reported. -/
def Tree.Fault.report (source : String) : Tree.Fault → SelectorError
  | .emptyField offset => ⟨.emptyName, offset, source⟩
  | .emptyCapture offset => ⟨.emptyName, offset, source⟩
  | .unknownType name offset => ⟨.unknownEntryType name, offset, source⟩

/-- The tree that the lexemes of a text form. -/
def grammarTree (source : String) : Except SelectorError Tree :=
  let lexed := lex source
  match (Draft.mk [] .operand).read lexed.lexemes with
  | .error l => .error ⟨.unexpectedToken l.token.source, l.offset, source⟩
  | .ok draft =>
    -- only when all lexemes in front of it fit does the character count that starts none
    match lexed.stop with
    | some (offset, c) => .error ⟨.unexpectedCharacter c, offset, source⟩
    | none =>
      match draft.finish? with
      | some t => .ok t
      | none => .error ⟨.unexpectedEnd, source.length, source⟩

/-- The syntax tree of a text, once it is known to be readable and not too high. -/
def parseTree (source : String) : Except SelectorError Tree :=
  if source.toList.all Text.isBlank then .error ⟨.empty, 0, source⟩
  else match unmatched? source with
    | some offset => .error ⟨.unbalancedParentheses, offset, source⟩
    | none => do
      let t ← grammarTree source
      match t.firstBelow? maxDepth with
      | some offset => .error ⟨.tooDeep, offset, source⟩
      | none => .ok t

/-- Why a text means no expression: it is no selector, or its syntax tree has a fault. -/
inductive ParseFault where
  | text (e : SelectorError)
  | tree (source : String) (f : Tree.Fault)
  deriving Repr, DecidableEq

/-- The error that is reported. -/
def ParseFault.report : ParseFault → SelectorError
  | text e => e
  | tree source f => f.report source

/-- The expression of a text, with faults of the syntax tree kept apart. -/
def parseExprFault (source : String) : Except ParseFault Expr :=
  match parseTree source with
  | .error e => .error (.text e)
  | .ok t =>
    match t.toExpr with
    | .error f => .error (.tree source f)
    | .ok e =>
      match firstRepeated? [] t.sortedCaptures with
      | some (name, offset) => .error (.text ⟨.duplicateBinding name, offset, source⟩)
      | none => .ok e

/-- The expression of a text. -/
def parseExpr (source : String) : Except SelectorError Expr :=
  (parseExprFault source).mapError ParseFault.report

/-- Reporting a fault does not change which texts have an expression. -/
theorem parseExpr_eq_ok_iff_fault {source : String} {e : Expr} :
    parseExpr source = .ok e ↔ parseExprFault source = .ok e := by
  unfold parseExpr
  cases parseExprFault source with
  | error f =>
    change Except.error f.report = Except.ok e ↔ _
    simp
  | ok d =>
    change (Except.ok d : Except SelectorError Expr) = .ok e ↔ _
    simp

theorem parseExpr_eq_ok_iff {source : String} {e : Expr} :
    parseExpr source = .ok e ↔
      ∃ t, parseTree source = .ok t ∧ t.toExpr = .ok e ∧ (t.captures.map Prod.fst).Nodup := by
  rw [parseExpr_eq_ok_iff_fault]
  unfold parseExprFault
  cases ht : parseTree source with
  | error d => simp
  | ok t =>
    cases he : t.toExpr with
    | error f => simp [he]
    | ok d =>
      have hsorted := firstRepeated?_eq_none_iff [] t.sortedCaptures
      rw [t.nodup_sortedCaptures_iff] at hsorted
      cases hr : firstRepeated? [] t.sortedCaptures with
      | some p =>
        have : ¬ (t.captures.map Prod.fst).Nodup := fun hn =>
          absurd (hsorted.2 ⟨hn, by simp⟩) (by simp [hr])
        obtain ⟨name, offset⟩ := p
        simp [he, hr, this]
      | none =>
        have := (hsorted.1 hr).1
        simp [he, hr, this]

/-! ### Queries -/

/-- An expression in which no capture name is bound twice, with the text that it came from. -/
structure Query where
  expr : Expr
  source : String
  deriving Repr, DecidableEq

namespace Query

/-- The query of an expression with its text, unless a capture name is bound twice. -/
def ofExpr (e : Expr) (source : String) : Except SelectorError Query :=
  match firstRepeated? [] (e.captures.map fun n => (n, 0)) with
  | some (name, _) => .error ⟨.duplicateBinding name, 0, source⟩
  | none => .ok ⟨e, source⟩

/-- The query of a text. -/
def parse (source : String) : Except SelectorError Query := do
  ofExpr (← parseExpr source) source

/-- Whether two queries ask for the same; their texts may differ. -/
def same (p q : Query) : Bool :=
  p.expr == q.expr

/-- What is shown for a query. -/
def plain (q : Query) : String :=
  "Selector(" ++ Text.quoted q.source ++ ")"

end Query

end Bibliograph.Selector
