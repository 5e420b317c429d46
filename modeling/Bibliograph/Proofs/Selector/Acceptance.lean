import Bibliograph.Proofs.Selector.Reading
import Bibliograph.Selector.Parse

/-!
# Which texts are selectors

A derivation guides the reading of its lexemes.  When the last of them was read, the tree is not
always put together yet: operators at its right end are closed only once the next lexeme shows that
nothing tighter follows.  So what was read is compared with the tree of the derivation after the
operators were closed that the stratum allows to close.

Main definitions:

* `Selector.Stratum.shut`: closes the operators that a stratum allows to close;
* `Selector.Draft.Shows`: a draft has read a tree of a stratum, up to closing;
* `Selector.Derivation.Readable`: the lexemes of a derivation can be read wherever it may stand.

Main results:

* `Selector.Derivation.readable`: every derivation is readable;
* `Selector.grammarTree_eq_ok_iff`: the reader finds the trees of the grammar;
* `Selector.parseExpr_iff_derivation`: **the accepted texts are those with a derivation**, and a
  sequence of lexemes has at most one.
-/

set_option autoImplicit false

namespace Bibliograph.Selector

/-! ### Closing in two steps -/

/-- Closing tight operators first makes no difference. -/
theorem close_close {σ σ' : Strength} (h : σ.rank ≤ σ'.rank) (fs : List Frame) (t : Tree) :
    close σ (close σ' fs t).1 (close σ' fs t).2 = close σ fs t := by
  induction fs generalizing t with
  | nil => rfl
  | cons f fs ih =>
      cases hf : f.operator? with
      | none => rw [close_of_not_operator hf]
      | some op =>
          obtain ⟨s, build⟩ := op
          rw [close_of_operator hf σ']
          by_cases hs : σ'.rank ≤ s.rank
          · rw [if_pos hs, ih, close_of_operator hf, if_pos (Nat.le_trans h hs)]
          · rw [if_neg hs]

/-- What groups to the left closes nothing where it may stand itself. -/
theorem close_eq_self {σ : Strength} (hσ : σ = .alternative ∨ σ = .conjunction) {fs : List Frame}
    (h : (awaited fs).rank ≤ σ.rank) (t : Tree) : close σ fs t = (fs, t) := by
  cases fs with
  | nil => rfl
  | cons f fs =>
      rcases hσ with rfl | rfl
      · cases f <;> simp_all [close, awaited, Frame.hole, Stratum.rank, Strength.rank]
      · cases f <;> simp_all [close, awaited, Frame.hole, Stratum.rank, Strength.rank]

/-- Closes the operators that may stand at the right end of a stratum. -/
def Stratum.shut : Stratum → List Frame → Tree → List Frame × Tree
  | relation => close .parent
  | alternation => close .alternative
  | conjunction => close .conjunction
  | negated => close .negation
  | filtered => Prod.mk
  | captured => Prod.mk
  | primary => Prod.mk

theorem Stratum.shut_shut {s s' : Stratum} (h : s'.rank ≤ s.rank) (fs : List Frame) (t : Tree) :
    s'.shut (s.shut fs t).1 (s.shut fs t).2 = s'.shut fs t := by
  cases s <;> cases s' <;>
    first
    | rfl
    | exact close_close (by decide) fs t
    | exact absurd h (by decide)

/-! ### Operands that were read -/

/-- The operand that was read, with the constructs that are still open. -/
def Draft.operand? (d : Draft) : Option (List Frame × Tree) :=
  match d.focus with
  | .name text offset => some (d.frames, .type text offset)
  | .complete t => some (d.frames, t)
  | _ => none

theorem Draft.step?_of_operand? {d : Draft} {fs : List Frame} {t : Tree}
    (h : d.operand? = some (fs, t)) {l : Lexeme} (hl : l.token ≠ .colon) :
    d.step? l = Draft.afterOperand? fs t l := by
  obtain ⟨gs, focus⟩ := d
  obtain ⟨token, o⟩ := l
  cases focus with
  | name text offset =>
      cases h
      cases token <;> first | rfl | exact absurd rfl hl
  | complete u =>
      cases h
      rfl
  | _ => cases h

theorem Draft.finish?_of_operand? {d : Draft} {fs : List Frame} {t u : Tree}
    (h : d.operand? = some (fs, t)) (hc : close .parent fs t = ([], u)) : d.finish? = some u := by
  obtain ⟨gs, focus⟩ := d
  cases focus with
  | name text offset =>
      cases h
      simp [finish?, hc]
  | complete v =>
      cases h
      simp [finish?, hc]
  | _ => cases h

theorem Draft.read_append_of_ok {d d' : Draft} {ls : List Lexeme} (h : d.read ls = .ok d')
    (ms : List Lexeme) : d.read (ls ++ ms) = d'.read ms := by
  rw [read_append, h]
  rfl

theorem Draft.afterPrimary_of_ne {fs : List Frame}
    (hp : awaited fs ≠ .primary) (t : Tree) : Draft.afterPrimary fs t = ⟨fs, .complete t⟩ := by
  cases fs with
  | nil => rfl
  | cons f fs => cases f <;> first | rfl | exact absurd rfl hp

/-- The names of a filter are read one after the other. -/
theorem Draft.read_fields (fs : List Frame) (t : Tree) (opening : Nat) (list : FieldList) :
    (Draft.mk fs (.firstField t opening)).read list.lexemes =
      .ok ⟨fs, .fields t opening list⟩ := by
  obtain ⟨first, more⟩ := list
  have rest : ∀ done : List (Nat × NameAt),
      (Draft.mk fs (.fields t opening ⟨first, done⟩)).read
          (more.flatMap fun m => [⟨.comma, m.1⟩, m.2.lexeme]) =
        .ok ⟨fs, .fields t opening ⟨first, done ++ more⟩⟩ := by
    induction more with
    | nil =>
        intro done
        rw [List.append_nil]
        rfl
    | cons m ms ih =>
        intro done
        have := ih (done ++ [m])
        rw [List.append_assoc] at this
        exact this
  exact rest []

/-- What was read of a draft with `fs` open is the tree, up to closing what the stratum allows. -/
def Draft.Shows (s : Stratum) (fs : List Frame) (t : Tree) (d : Draft) : Prop :=
  ∃ gs u, d.operand? = some (gs, u) ∧ s.shut gs u = s.shut fs t

theorem Draft.Shows.loosen {s s' : Stratum} {fs : List Frame} {t : Tree} {d : Draft}
    (h : d.Shows s fs t) (hs : s'.rank ≤ s.rank) : d.Shows s' fs t := by
  obtain ⟨gs, u, hd, hshut⟩ := h
  refine ⟨gs, u, hd, ?_⟩
  rw [← Stratum.shut_shut hs gs u, hshut, Stratum.shut_shut hs]

/-! ### Derivations are readable -/

/-- Wherever the stratum may stand, the lexemes of the derivation can be read. -/
def Derivation.Readable {s : Stratum} (d : Derivation s) : Prop :=
  ∀ fs : List Frame, (awaited fs).rank ≤ s.rank → awaited fs ≠ .primary →
    ∃ e, (Draft.mk fs .operand).read d.tree.lexemes = .ok e ∧ e.Shows s fs d.tree

/-- Where a capture waits, the lexemes of the derivation can be read, and the capture takes them. -/
def Derivation.Takeable (d : Derivation .primary) : Prop :=
  ∀ (fs : List Frame) (name : NameAt) (colon : Nat),
    (Draft.mk (.capture name colon :: fs) .primary).read d.tree.lexemes =
      .ok ⟨fs, .complete (.capture name colon d.tree)⟩

namespace Derivation

/-- A rule that only passes on to a tighter stratum. -/
theorem Readable.pass {s s' : Stratum} {d : Derivation s} (hd : d.Readable) (h : s'.rank ≤ s.rank)
    {d' : Derivation s'} (htree : d'.tree = d.tree) : d'.Readable := by
  intro fs hr hp
  obtain ⟨e, he, hshow⟩ := hd fs (Nat.le_trans hr h) hp
  rw [htree]
  exact ⟨e, he, hshow.loosen h⟩

/-- The left side of an operator and its mark are read, and the right side must follow. -/
theorem Readable.read_mark {s : Stratum} {left : Derivation s} (hleft : left.Readable)
    {σ : Strength} (hs : s.shut = close σ) (hσ : σ = .alternative ∨ σ = .conjunction)
    {frame : Tree → Frame} {mark : Lexeme}
    (hmark : ∀ gs u, Draft.afterOperand? gs u mark = some (Draft.await σ frame gs u))
    (hcolon : mark.token ≠ .colon) {fs : List Frame} (hr : (awaited fs).rank ≤ σ.rank)
    (hrank : σ.rank = s.rank) (hp : awaited fs ≠ .primary) (ms : List Lexeme) :
    (Draft.mk fs .operand).read (left.tree.lexemes ++ mark :: ms) =
      (Draft.mk (frame left.tree :: fs) .operand).read ms := by
  obtain ⟨e, he, gs, u, hu, hshut⟩ := hleft fs (hrank ▸ hr) hp
  rw [hs, close_eq_self hσ hr] at hshut
  have hawait : Draft.await σ frame gs u = ⟨frame left.tree :: fs, .operand⟩ := by
    rw [Draft.await, hshut]
  rw [Draft.read_append_of_ok he, Draft.read, Draft.step?_of_operand? hu hcolon, hmark, hawait]

theorem Readable.conjunction {left : Derivation .conjunction} {right : Derivation .negated}
    (hl : left.Readable) (hr : right.Readable) (mark : Nat) :
    (Derivation.conjunction left mark right).Readable := by
  intro fs hfs hp
  obtain ⟨e, he, gs, u, hu, hshut⟩ := hr (.conjunction left.tree mark :: fs) (Nat.le_refl _)
    (by simp [awaited, Frame.hole])
  refine ⟨e, ?_, gs, u, hu, ?_⟩
  · rw [tree, Tree.lexemes, hl.read_mark rfl (Or.inr rfl) (fun _ _ => rfl) (by simp) hfs rfl hp]
    exact he
  · rw [← Stratum.shut_shut (s := .negated) (by decide), hshut]
    rfl

theorem Readable.alternative {left : Derivation .alternation} {right : Derivation .conjunction}
    (hl : left.Readable) (hr : right.Readable) (mark : Nat) :
    (Derivation.alternative left mark right).Readable := by
  intro fs hfs hp
  obtain ⟨e, he, gs, u, hu, hshut⟩ := hr (.alternative left.tree mark :: fs) (Nat.le_refl _)
    (by simp [awaited, Frame.hole])
  refine ⟨e, ?_, gs, u, hu, ?_⟩
  · rw [tree, Tree.lexemes, hl.read_mark rfl (Or.inl rfl) (fun _ _ => rfl) (by simp) hfs rfl hp]
    exact he
  · rw [← Stratum.shut_shut (s := .conjunction) (by decide), hshut]
    rfl

theorem Readable.parent {child : Derivation .alternation} {ancestor : Derivation .relation}
    (hc : child.Readable) (ha : ancestor.Readable) (mark : Nat) :
    (Derivation.parent child mark ancestor).Readable := by
  intro fs hfs hp
  obtain ⟨e, he, gs, u, hu, hshut⟩ := ha (.parent child.tree mark :: fs) (Nat.le_refl _)
    (by simp [awaited, Frame.hole])
  refine ⟨e, ?_, gs, u, hu, ?_⟩
  · rw [tree, Tree.lexemes, hc.read_mark rfl (Or.inl rfl) (fun _ _ => rfl) (by simp)
      (Nat.le_succ_of_le hfs) rfl hp]
    exact he
  · rw [hshut]
    rfl

theorem Readable.negation {inner : Derivation .negated} (h : inner.Readable) (bang : Nat) :
    (Derivation.negation bang inner).Readable := by
  intro fs _ _
  obtain ⟨e, he, gs, u, hu, hshut⟩ := h (.negation bang :: fs) (Nat.le_refl _)
    (by simp [awaited, Frame.hole])
  refine ⟨e, he, gs, u, hu, ?_⟩
  rw [hshut]
  rfl

theorem Readable.filter {inner : Derivation .filtered} (h : inner.Readable) (opening : Nat)
    (fields : FieldList) (closing : Nat) :
    (Derivation.filter inner opening fields closing).Readable := by
  intro fs hfs hp
  obtain ⟨e, he, gs, u, hu, hshut⟩ := h fs hfs hp
  cases hshut
  refine ⟨⟨fs, .complete (.filter inner.tree opening fields closing)⟩, ?_, _, _, rfl, rfl⟩
  have hopen : e.step? ⟨.openBracket, opening⟩ = some ⟨fs, .firstField inner.tree opening⟩ := by
    rw [Draft.step?_of_operand? hu (by simp)]
    rfl
  rw [tree, Tree.lexemes, Draft.read_append_of_ok he, Draft.read, hopen]
  simp only
  rw [Draft.read_append_of_ok (Draft.read_fields fs inner.tree opening fields)]
  rfl

theorem Readable.capture {inner : Derivation .primary} (h : inner.Takeable) (name : NameAt)
    (colon : Nat) : (Derivation.capture name colon inner).Readable := by
  intro fs _ _
  refine ⟨⟨fs, .complete (.capture name colon inner.tree)⟩, ?_, _, _, rfl, rfl⟩
  obtain ⟨name, offset⟩ := name
  cases name with
  | bare text => exact h fs ⟨.bare text, offset⟩ colon
  | quoted raw => exact h fs ⟨.quoted raw, offset⟩ colon

/-- A group is read wherever its parenthesis can be opened. -/
theorem Readable.read_group {inner : Derivation .relation} (h : inner.Readable) (fs : List Frame)
    (opening closing : Nat) :
    (Draft.mk (.group opening :: fs) .operand).read
        (inner.tree.lexemes ++ [⟨.closeParen, closing⟩]) =
      .ok (Draft.afterPrimary fs (.group opening inner.tree closing)) := by
  obtain ⟨e, he, gs, u, hu, hshut⟩ := h (.group opening :: fs) (Nat.le_refl _)
    (by simp [awaited, Frame.hole])
  have hclose : close .parent gs u = (.group opening :: fs, inner.tree) := hshut
  rw [Draft.read_append_of_ok he, Draft.read, Draft.step?_of_operand? hu (by simp),
    Draft.afterOperand?]
  simp only [hclose]
  rfl

theorem Readable.group {inner : Derivation .relation} (h : inner.Readable) (opening closing : Nat) :
    (Derivation.group opening inner closing).Readable := by
  intro fs _ hp
  refine ⟨⟨fs, .complete (.group opening inner.tree closing)⟩, ?_, _, _, rfl, rfl⟩
  rw [← Draft.afterPrimary_of_ne hp]
  exact h.read_group fs opening closing

/-- **Every derivation is readable**, and a primary can be taken by a capture. -/
theorem readable {s : Stratum} (d : Derivation s) : d.Readable := by
  have both : d.Readable ∧ ∀ h : s = .primary, (h ▸ d).Takeable := by
    induction d with
    | ofAlternation d ih => exact ⟨ih.1.pass (by decide) rfl, by simp⟩
    | parent child mark ancestor ihc iha => exact ⟨ihc.1.parent iha.1 mark, by simp⟩
    | ofConjunction d ih => exact ⟨ih.1.pass (by decide) rfl, by simp⟩
    | alternative left mark right ihl ihr => exact ⟨ihl.1.alternative ihr.1 mark, by simp⟩
    | ofNegated d ih => exact ⟨ih.1.pass (by decide) rfl, by simp⟩
    | conjunction left mark right ihl ihr => exact ⟨ihl.1.conjunction ihr.1 mark, by simp⟩
    | ofFiltered d ih => exact ⟨ih.1.pass (by decide) rfl, by simp⟩
    | negation bang inner ih => exact ⟨ih.1.negation bang, by simp⟩
    | ofCaptured d ih => exact ⟨ih.1.pass (by decide) rfl, by simp⟩
    | filter inner opening fields closing ih => exact ⟨ih.1.filter opening fields closing, by simp⟩
    | ofPrimary d ih => exact ⟨ih.1.pass (by decide) rfl, by simp⟩
    | capture name colon inner ih => exact ⟨.capture (ih.2 rfl) name colon, by simp⟩
    | type name offset =>
        exact ⟨fun fs _ _ => ⟨_, rfl, _, _, rfl, rfl⟩, fun _ fs name colon => rfl⟩
    | wildcard star =>
        exact ⟨fun fs _ _ => ⟨_, rfl, _, _, rfl, rfl⟩, fun _ fs name colon => rfl⟩
    | group opening inner closing ih =>
        exact ⟨ih.1.group opening closing, fun _ fs name colon =>
          ih.1.read_group (.capture name colon :: fs) opening closing⟩
  exact both.1

end Derivation

/-! ### Texts -/

/-- A derivation from the start is read to its tree, with nothing left open. -/
theorem Derivation.read_start (d : Derivation .relation) :
    ∃ e, (Draft.mk [] .operand).read d.tree.lexemes = .ok e ∧ e.finish? = some d.tree := by
  obtain ⟨e, he, gs, u, hu, hshut⟩ := d.readable [] (Nat.le_refl _) (by simp [awaited])
  exact ⟨e, he, Draft.finish?_of_operand? hu hshut⟩

/-- The reader finds the trees of the grammar with the lexemes of the text. -/
theorem grammarTree_eq_ok_iff {source : String} {t : Tree} :
    grammarTree source = .ok t ↔ t.Fits .relation ∧ Spells 0 source.toList t.lexemes := by
  constructor
  · intro h
    rw [grammarTree] at h
    split at h
    · cases h
    · rename_i e hread
      split at h
      · cases h
      · rename_i hstop
        split at h
        · rename_i u hfinish
          cases h
          obtain ⟨hs, hl⟩ := Draft.read_sound Draft.sound_start hread
          obtain ⟨hfits, hlexemes⟩ := Draft.finish?_sound hs hfinish
          refine ⟨hfits, spells_iff.2 ?_⟩
          rw [hlexemes, hl, ← hstop]
          rfl
        · cases h
  · rintro ⟨⟨d, rfl⟩, h⟩
    obtain ⟨e, hread, hfinish⟩ := d.read_start
    have hlex : lex source = ⟨d.tree.lexemes, none⟩ := spells_iff.1 h
    simp only [grammarTree, hlex, hread, hfinish]

/-- Of a text of the grammar only the height of its tree is looked at. -/
theorem parseTree_of_spells {source : String} {t : Tree} (ht : t.Fits .relation)
    (hs : Spells 0 source.toList t.lexemes) :
    parseTree source = match t.firstBelow? maxDepth with
      | some offset => .error ⟨.tooDeep, offset, source⟩
      | none => .ok t := by
  obtain ⟨hblank, hmatched⟩ := readable_of_spells hs
  have htree : grammarTree source = .ok t := grammarTree_eq_ok_iff.2 ⟨ht, hs⟩
  rw [parseTree, if_neg (by simp [hblank]), hmatched]
  simp only [htree]
  rfl

/-- The checks before and after the reading let through the trees that are not too high. -/
theorem parseTree_eq_ok_iff {source : String} {t : Tree} :
    parseTree source = .ok t ↔
      t.Fits .relation ∧ Spells 0 source.toList t.lexemes ∧ t.height ≤ maxDepth := by
  have hheight : t.firstBelow? maxDepth = none ↔ t.height ≤ maxDepth := by
    rw [← Option.not_isSome_iff_eq_none, Tree.firstBelow?_isSome_iff, Nat.not_lt]
  constructor
  · intro h
    rw [parseTree] at h
    split at h
    · cases h
    · split at h
      · cases h
      · rw [bind_eq_ok_iff] at h
        obtain ⟨u, hu, h⟩ := h
        split at h
        · cases h
        · rename_i hdepth
          cases h
          obtain ⟨hfits, hspells⟩ := grammarTree_eq_ok_iff.1 hu
          exact ⟨hfits, hspells, hheight.1 hdepth⟩
  · rintro ⟨hfits, hspells, hdepth⟩
    rw [parseTree_of_spells hfits hspells, hheight.2 hdepth]

theorem parseExpr_of_parseTree_error {source : String} {err : SelectorError}
    (h : parseTree source = .error err) : parseExpr source = .error err := by
  rw [parseExpr, parseExprFault, h]
  rfl

/-- The faults that the names of a syntax tree can have. -/
def Fault.IsOfName : Fault → Prop
  | .emptyName => True
  | .unknownEntryType _ => True
  | .duplicateBinding _ => True
  | _ => False

/-- Once a text has a tree, only a name is reported. -/
theorem isOfName_of_parseTree_eq_ok {source : String} {t : Tree} {e : SelectorError}
    (ht : parseTree source = .ok t) (h : parseExpr source = .error e) : e.fault.IsOfName := by
  rw [parseExpr, parseExprFault, ht] at h
  dsimp only at h
  split at h
  · rename_i f _
    cases h
    cases f <;> trivial
  · split at h
    · cases h
      trivial
    · cases h

/-- A text of the grammar whose tree is too high is refused for that. -/
theorem parseExpr_of_tooHigh {source : String} {t : Tree} (ht : t.Fits .relation)
    (hs : Spells 0 source.toList t.lexemes) (hd : maxDepth < t.height) :
    ∃ o, parseExpr source = .error ⟨.tooDeep, o, source⟩ := by
  obtain ⟨o, ho⟩ := Option.isSome_iff_exists.1 ((t.firstBelow?_isSome_iff maxDepth).2 hd)
  refine ⟨o, parseExpr_of_parseTree_error ?_⟩
  rw [parseTree_of_spells ht hs, ho]

/-- A text whose derivation is not too high means the expression of its tree. -/
theorem parseExpr_of_derivation {source : String} {e : Expr} {d : Derivation .relation}
    (hs : Spells 0 source.toList d.tree.lexemes) (hd : d.tree.height ≤ maxDepth)
    (he : d.tree.Means e) (hn : e.captures.Nodup) : parseExpr source = .ok e := by
  refine parseExpr_eq_ok_iff.2 ⟨d.tree, parseTree_eq_ok_iff.2 ⟨⟨d, rfl⟩, hs, hd⟩, ?_, ?_⟩
  · exact he.toExpr_eq fun w o => hs.isNameChar_of_bare
  · rw [← he.captures_eq]
    exact hn

/-- The tree of an accepted text means its expression. -/
theorem exists_tree_of_parseExpr {source : String} {e : Expr} (h : parseExpr source = .ok e) :
    ∃ t, parseTree source = .ok t ∧ t.Means e ∧ e.captures.Nodup := by
  obtain ⟨t, ht, he, hn⟩ := parseExpr_eq_ok_iff.1 h
  obtain ⟨-, hs, -⟩ := parseTree_eq_ok_iff.1 ht
  have hmeans : t.Means e := Tree.means_of_toExpr he fun w o => hs.isNameChar_of_bare
  rw [← hmeans.captures_eq] at hn
  exact ⟨t, ht, hmeans, hn⟩

/-- A sequence of lexemes has at most one derivation. -/
theorem Derivation.eq_of_lexemes {d d' : Derivation .relation}
    (h : d.tree.lexemes = d'.tree.lexemes) : d = d' := by
  obtain ⟨e, hread, hfinish⟩ := d.read_start
  obtain ⟨e', hread', hfinish'⟩ := d'.read_start
  rw [← h, hread] at hread'
  cases hread'
  rw [hfinish] at hfinish'
  exact d.tree_injective d' (Option.some.inj hfinish')

/-- **The accepted texts are those with a derivation.**  A text means an expression exactly if it
spells the lexemes of a derivation that is not too high, whose tree means the expression, and no
capture name is bound twice.  There is no other reading: a text spells at most one sequence of
lexemes, and a sequence of lexemes has at most one derivation. -/
theorem parseExpr_iff_derivation (source : String) :
    (∀ e : Expr, parseExpr source = .ok e ↔
      ∃ d : Derivation .relation, Spells 0 source.toList d.tree.lexemes ∧
        d.tree.height ≤ maxDepth ∧ d.tree.Means e ∧ e.captures.Nodup) ∧
    (∀ ls ls' : List Lexeme, Spells 0 source.toList ls → Spells 0 source.toList ls' → ls = ls') ∧
    ∀ d d' : Derivation .relation, d.tree.lexemes = d'.tree.lexemes → d = d' := by
  refine ⟨fun e => ⟨fun h => ?_, ?_⟩, fun ls ls' => Spells.unique,
    fun d d' => Derivation.eq_of_lexemes⟩
  · obtain ⟨t, ht, he, hn⟩ := parseExpr_eq_ok_iff.1 h
    obtain ⟨⟨d, rfl⟩, hs, hd⟩ := parseTree_eq_ok_iff.1 ht
    have hmeans := Tree.means_of_toExpr he fun w o => hs.isNameChar_of_bare
    rw [← hmeans.captures_eq] at hn
    exact ⟨d, hs, hd, hmeans, hn⟩
  · rintro ⟨d, hs, hd, he, hn⟩
    exact parseExpr_of_derivation hs hd he hn

/-- The derivation of a negated star. -/
theorem parseExpr_negated_star : parseExpr "!*" = .ok (.not .any) := by
  refine ((parseExpr_iff_derivation "!*").1 _).2 ⟨.ofAlternation (.ofConjunction (.ofNegated
    (.negation 0 (.ofFiltered (.ofCaptured (.ofPrimary (.wildcard 1))))))), ?_, by decide,
    .negation .wildcard, by decide⟩
  have htext : "!*".toList = ['!', '*'] := by decide
  rw [htext]
  exact .mark (by decide) (.mark (by decide) (.done _))

end Bibliograph.Selector
