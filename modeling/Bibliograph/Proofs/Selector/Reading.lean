import Bibliograph.Proofs.Selector.Grammar
import Bibliograph.Selector.Draft

/-!
# Reading follows the grammar

A draft stands for the lexemes that were read.  Each open construct waits for something of a
stratum and, once it has it, is of a stratum itself; a stack of open constructs is nested if each
of them may stand where the one around it waits.  Every step keeps this invariant and adds the
lexeme to what the draft stands for, so a tree that comes out has a derivation and these lexemes.

Main definitions:

* `Selector.Draft.lexemes`: the lexemes that a draft stands for;
* `Selector.awaited`: the stratum of what may follow a stack of open constructs;
* `Selector.Nested`: each open construct may stand where the one around it waits;
* `Selector.Draft.Sound`: the invariant of the reading;
* `Selector.Frame.operator?`: how tightly an open operator holds, and what it builds.

Main results:

* `Selector.close_sound`: closing operators keeps the invariant and the lexemes;
* `Selector.Draft.step?_sound`: a step keeps the invariant, and adds its lexeme;
* `Selector.Draft.read_sound`: **reading keeps the invariant, and adds the lexemes**;
* `Selector.Draft.finish?_sound`: a tree that comes out is a selector with these lexemes.
-/

set_option autoImplicit false

namespace Bibliograph.Selector

/-! ### What a draft stands for -/

/-- The lexemes of an open construct up to where it waits. -/
def Frame.lexemes : Frame → List Lexeme
  | negation bang => [⟨.bang, bang⟩]
  | conjunction left mark => left.lexemes ++ [⟨.ampersand, mark⟩]
  | alternative left mark => left.lexemes ++ [⟨.bar, mark⟩]
  | parent child mark => child.lexemes ++ [⟨.greater, mark⟩]
  | group opening => [⟨.openParen, opening⟩]
  | capture name colon => [name.lexeme, ⟨.colon, colon⟩]

/-- The lexemes of open constructs, the innermost of which comes first and is written last. -/
def framesLexemes : List Frame → List Lexeme
  | [] => []
  | f :: fs => framesLexemes fs ++ f.lexemes

/-- The lexemes of what is being read. -/
def Focus.lexemes : Focus → List Lexeme
  | operand => []
  | name text offset => [⟨.name (.bare text), offset⟩]
  | quoted raw offset => [⟨.name (.quoted raw), offset⟩]
  | primary => []
  | complete t => t.lexemes
  | firstField t opening => t.lexemes ++ [⟨.openBracket, opening⟩]
  | fields t opening list => t.lexemes ++ ⟨.openBracket, opening⟩ :: list.lexemes
  | nextField t opening list comma =>
    t.lexemes ++ ⟨.openBracket, opening⟩ :: (list.lexemes ++ [⟨.comma, comma⟩])

/-- The lexemes that a draft stands for. -/
def Draft.lexemes (d : Draft) : List Lexeme :=
  framesLexemes d.frames ++ d.focus.lexemes

theorem FieldList.lexemes_snoc (f : FieldList) (comma : Nat) (n : NameAt) :
    (f.snoc comma n).lexemes = f.lexemes ++ [⟨.comma, comma⟩, n.lexeme] := by
  simp [FieldList.lexemes, FieldList.snoc]

/-! ### The invariant -/

/-- The stratum of what an open construct waits for. -/
def Frame.hole : Frame → Stratum
  | negation _ => .negated
  | conjunction _ _ => .negated
  | alternative _ _ => .conjunction
  | parent _ _ => .relation
  | group _ => .relation
  | capture _ _ => .primary

/-- The stratum of an open construct once it has what it waits for. -/
def Frame.whole : Frame → Stratum
  | negation _ => .negated
  | conjunction _ _ => .conjunction
  | alternative _ _ => .alternation
  | parent _ _ => .relation
  | group _ => .primary
  | capture _ _ => .captured

/-- What an open construct has already is of the right stratum. -/
def Frame.Fits : Frame → Prop
  | negation _ => True
  | conjunction left _ => left.Fits .conjunction
  | alternative left _ => left.Fits .alternation
  | parent child _ => child.Fits .alternation
  | group _ => True
  | capture _ _ => True

/-- The stratum of what may follow a stack of open constructs. -/
def awaited : List Frame → Stratum
  | [] => .relation
  | f :: _ => f.hole

/-- Each open construct may stand where the one around it waits. -/
def Nested : List Frame → Prop
  | [] => True
  | f :: fs => f.Fits ∧ (awaited fs).rank ≤ f.whole.rank ∧ Nested fs

/-- What waits for anything but a primary does not wait for anything tighter than a negated. -/
theorem awaited_rank_le {fs : List Frame} (h : awaited fs ≠ .primary) :
    (awaited fs).rank ≤ Stratum.negated.rank := by
  cases fs with
  | nil => decide
  | cons f fs => cases f <;> simp_all [awaited, Frame.hole, Stratum.rank]

theorem awaited_ne_primary {fs : List Frame} {s : Stratum} (h : (awaited fs).rank ≤ s.rank)
    (hs : s.rank ≤ Stratum.captured.rank) : awaited fs ≠ .primary := by
  intro e
  rw [e] at h
  simp only [Stratum.rank] at h hs
  omega

/-- An operand may stand wherever not only a primary may. -/
theorem Tree.Fits.of_awaited {t : Tree} (ht : t.Fits .filtered) {fs : List Frame}
    (hp : awaited fs ≠ .primary) : t.Fits (awaited fs) :=
  ht.loosen (Nat.le_succ_of_le (awaited_rank_le hp))

/-- What is being read goes with what is awaited. -/
def Focus.Fits (fs : List Frame) : Focus → Prop
  | operand => awaited fs ≠ .primary
  | name _ _ => awaited fs ≠ .primary
  | quoted _ _ => awaited fs ≠ .primary
  | primary => awaited fs = .primary
  | complete t => awaited fs ≠ .primary ∧ t.Fits .filtered
  | firstField t _ => awaited fs ≠ .primary ∧ t.Fits .filtered
  | fields t _ _ => awaited fs ≠ .primary ∧ t.Fits .filtered
  | nextField t _ _ _ => awaited fs ≠ .primary ∧ t.Fits .filtered

/-- The invariant of the reading. -/
def Draft.Sound (d : Draft) : Prop :=
  Nested d.frames ∧ d.focus.Fits d.frames

theorem Draft.sound_start : (Draft.mk [] .operand).Sound :=
  ⟨trivial, by simp [Focus.Fits, awaited]⟩

/-! ### Closing -/

/-- The stratum of what is there after operators of a strength were closed. -/
def Strength.stratum : Strength → Stratum
  | parent => .relation
  | alternative => .alternation
  | conjunction => .conjunction
  | negation => .negated

theorem Strength.rank_stratum (σ : Strength) : σ.stratum.rank = σ.rank := by
  cases σ <;> rfl

/-- How tightly an open operator holds, and what it builds with its last operand. -/
def Frame.operator? : Frame → Option (Strength × (Tree → Tree))
  | negation bang => some (.negation, .negation bang)
  | conjunction left mark => some (.conjunction, .conjunction left mark)
  | alternative left mark => some (.alternative, .alternative left mark)
  | parent child mark => some (.parent, .parent child mark)
  | group _ => none
  | capture _ _ => none

theorem close_of_operator {f : Frame} {s : Strength} {build : Tree → Tree}
    (hf : f.operator? = some (s, build)) (σ : Strength) (fs : List Frame) (t : Tree) :
    close σ (f :: fs) t = if σ.rank ≤ s.rank then close σ fs (build t) else (f :: fs, t) := by
  cases f with
  | negation bang =>
      cases hf
      rw [close, if_pos (by cases σ <;> decide)]
  | conjunction left mark =>
      cases hf
      rfl
  | alternative left mark =>
      cases hf
      rfl
  | parent child mark =>
      cases hf
      rfl
  | group opening => cases hf
  | capture name colon => cases hf

theorem close_of_not_operator {f : Frame} (hf : f.operator? = none) (σ : Strength)
    (fs : List Frame) (t : Tree) : close σ (f :: fs) t = (f :: fs, t) := by
  cases f <;> first | rfl | cases hf

section Operators

variable {f : Frame} {s : Strength} {build : Tree → Tree} (hf : f.operator? = some (s, build))
include hf

theorem Frame.whole_of_operator : f.whole = s.stratum := by
  cases f <;> cases hf <;> rfl

theorem Frame.lexemes_of_operator (t : Tree) : (build t).lexemes = f.lexemes ++ t.lexemes := by
  cases f <;> cases hf <;> simp [Frame.lexemes, Tree.lexemes]

/-- An operator waits for at most one stratum tighter than its own. -/
theorem Frame.hole_rank_le : f.hole.rank ≤ s.rank + 1 := by
  cases f <;> cases hf <;> simp [Frame.hole, Stratum.rank, Strength.rank]

theorem Frame.fits_of_operator (hleft : f.Fits) {t : Tree} (ht : t.Fits f.hole) :
    (build t).Fits s.stratum := by
  cases f with
  | negation bang =>
      cases hf
      exact ht.negation bang
  | conjunction left mark =>
      cases hf
      exact hleft.conjunction ht mark
  | alternative left mark =>
      cases hf
      exact hleft.alternative ht mark
  | parent child mark =>
      cases hf
      exact hleft.parent ht mark
  | group opening => cases hf
  | capture name colon => cases hf

end Operators

/-- **Closing operators keeps the invariant and the lexemes**, and what is closed may stand where
the constructs that are still open wait. -/
theorem close_sound {σ : Strength} {fs : List Frame} {t : Tree} (hn : Nested fs)
    (hp : awaited fs ≠ .primary) (ht : t.Fits (awaited fs)) (hσ : t.Fits σ.stratum)
    {fs' : List Frame} {t' : Tree} (h : close σ fs t = (fs', t')) :
    Nested fs' ∧ t'.Fits σ.stratum ∧ (awaited fs').rank ≤ σ.rank ∧
      framesLexemes fs' ++ t'.lexemes = framesLexemes fs ++ t.lexemes := by
  induction fs generalizing t with
  | nil =>
      cases h
      exact ⟨hn, hσ, Nat.zero_le _, rfl⟩
  | cons f fs ih =>
      obtain ⟨hleft, hw, hn'⟩ := hn
      cases hf : f.operator? with
      | none =>
          rw [close_of_not_operator hf] at h
          cases h
          refine ⟨⟨hleft, hw, hn'⟩, hσ, ?_, rfl⟩
          cases f with
          | group opening => exact Nat.zero_le _
          | capture name colon => exact absurd rfl hp
          | _ => cases hf
      | some op =>
          obtain ⟨s, build⟩ := op
          rw [close_of_operator hf] at h
          have hrank : s.stratum.rank = s.rank := s.rank_stratum
          rw [Frame.whole_of_operator hf] at hw
          split at h
          · -- what is put together stands in the place around it, and the closing goes on
            rename_i hle
            have hu : (build t).Fits s.stratum := Frame.fits_of_operator hf hleft ht
            have hp' : awaited fs ≠ .primary :=
              awaited_ne_primary hw (by cases s <;> decide)
            obtain ⟨h₁, h₂, h₃, h₄⟩ := ih hn' hp' (hu.loosen hw)
              (hu.loosen (by rw [hrank, Strength.rank_stratum]; exact hle)) h
            refine ⟨h₁, h₂, h₃, h₄.trans ?_⟩
            rw [Frame.lexemes_of_operator hf, framesLexemes, List.append_assoc]
          · rename_i hlt
            cases h
            have := Frame.hole_rank_le hf
            exact ⟨⟨hleft, by rw [Frame.whole_of_operator hf]; exact hw, hn'⟩, hσ,
              Nat.le_trans this (Nat.not_le.1 hlt), rfl⟩

/-! ### Steps -/

/-- A primary goes to the capture that waits for it, or else is an operand. -/
theorem Draft.afterPrimary_sound {fs : List Frame} {t : Tree} (hn : Nested fs)
    (ht : t.Fits .primary) :
    (Draft.afterPrimary fs t).Sound ∧
      (Draft.afterPrimary fs t).lexemes = framesLexemes fs ++ t.lexemes := by
  have operand : awaited fs ≠ .primary → (Draft.mk fs (.complete t)).Sound :=
    fun hp => ⟨hn, hp, ht.loosen (by decide)⟩
  cases fs with
  | nil => exact ⟨operand (by decide), rfl⟩
  | cons f fs =>
      cases f with
      | capture name colon =>
          obtain ⟨_, hw, hn'⟩ := hn
          have hc := ht.capture name colon
          have hp : awaited fs ≠ .primary := awaited_ne_primary hw (Nat.le_refl _)
          refine ⟨⟨hn', hp, hc.loosen (by decide)⟩, ?_⟩
          simp [Draft.afterPrimary, Draft.lexemes, Focus.lexemes, framesLexemes, Frame.lexemes,
            Tree.lexemes]
      | _ => exact ⟨operand (by simp [awaited, Frame.hole]), rfl⟩

/-- A frame that takes what was closed to operators of strength `σ` on its left. -/
structure Takes (σ : Strength) (frame : Tree → Frame) (mark : Lexeme) : Prop where
  fits : ∀ u : Tree, u.Fits σ.stratum → (frame u).Fits
  place : ∀ (u : Tree) (fs : List Frame), (awaited fs).rank ≤ σ.rank →
    (awaited fs).rank ≤ (frame u).whole.rank
  hole : ∀ u : Tree, (frame u).hole ≠ .primary
  lexemes : ∀ u : Tree, (frame u).lexemes = u.lexemes ++ [mark]

theorem takes_conjunction (o : Nat) :
    Takes .conjunction (.conjunction · o) ⟨.ampersand, o⟩ where
  fits _ h := h
  place _ _ h := h
  hole _ := by simp [Frame.hole]
  lexemes _ := rfl

theorem takes_alternative (o : Nat) : Takes .alternative (.alternative · o) ⟨.bar, o⟩ where
  fits _ h := h
  place _ _ h := h
  hole _ := by simp [Frame.hole]
  lexemes _ := rfl

/-- Nothing waits for an alternation as such, so what is not tighter waits for a relation. -/
theorem takes_parent (o : Nat) : Takes .alternative (.parent · o) ⟨.greater, o⟩ where
  fits _ h := h
  place _ fs h := by
    cases fs with
    | nil => exact Nat.le_refl _
    | cons f fs => cases f <;> simp_all [awaited, Frame.hole, Frame.whole, Stratum.rank,
        Strength.rank]
  hole _ := by simp [Frame.hole]
  lexemes _ := rfl

theorem Draft.await_sound {σ : Strength} {frame : Tree → Frame} {mark : Lexeme}
    (hframe : Takes σ frame mark) {fs : List Frame} {t : Tree} (hn : Nested fs)
    (hp : awaited fs ≠ .primary) (ht : t.Fits .filtered) :
    (Draft.await σ frame fs t).Sound ∧
      (Draft.await σ frame fs t).lexemes = framesLexemes fs ++ t.lexemes ++ [mark] := by
  have hσ : t.Fits σ.stratum := ht.loosen (by cases σ <;> decide)
  cases h : close σ fs t with | mk gs u =>
  obtain ⟨hn', hu, hr, hl⟩ := close_sound hn hp (ht.of_awaited hp) hσ h
  have hd : Draft.await σ frame fs t = ⟨frame u :: gs, .operand⟩ := by simp [Draft.await, h]
  rw [hd]
  refine ⟨⟨⟨hframe.fits u hu, hframe.place u gs hr, hn'⟩, hframe.hole u⟩, ?_⟩
  rw [Draft.lexemes, framesLexemes, hframe.lexemes, ← hl]
  simp [Focus.lexemes]

/-- What follows an operand keeps the invariant, and adds its lexeme. -/
theorem Draft.afterOperand?_sound {fs : List Frame} {t : Tree} (hn : Nested fs)
    (hp : awaited fs ≠ .primary) (ht : t.Fits .filtered) {l : Lexeme} {d : Draft}
    (h : Draft.afterOperand? fs t l = some d) :
    d.Sound ∧ d.lexemes = framesLexemes fs ++ t.lexemes ++ [l] := by
  obtain ⟨token, o⟩ := l
  cases token with
  | openBracket =>
      cases h
      exact ⟨⟨hn, hp, ht⟩, by simp [Draft.lexemes, Focus.lexemes]⟩
  | ampersand =>
      cases h
      exact Draft.await_sound (takes_conjunction o) hn hp ht
  | bar =>
      cases h
      exact Draft.await_sound (takes_alternative o) hn hp ht
  | greater =>
      cases h
      exact Draft.await_sound (takes_parent o) hn hp ht
  | closeParen =>
      simp only [Draft.afterOperand?] at h
      split at h
      · rename_i opening gs u hc
        cases h
        obtain ⟨hn', hu, -, hl⟩ := close_sound hn hp (ht.of_awaited hp) (ht.loosen (by decide)) hc
        obtain ⟨hs, hl'⟩ := Draft.afterPrimary_sound hn'.2.2 (hu.group opening o)
        refine ⟨hs, ?_⟩
        rw [hl', ← hl]
        simp [framesLexemes, Frame.lexemes, Tree.lexemes]
      · cases h
  | _ => cases h

/-- A construct is opened where it may stand. -/
theorem Draft.open_sound {fs : List Frame} (hn : Nested fs) (f : Frame) (hf : f.Fits)
    (hr : (awaited fs).rank ≤ f.whole.rank) {focus : Focus} (hfocus : focus.Fits (f :: fs)) :
    (Draft.mk (f :: fs) focus).Sound ∧
      (Draft.mk (f :: fs) focus).lexemes = framesLexemes fs ++ (f.lexemes ++ focus.lexemes) :=
  ⟨⟨⟨hf, hr, hn⟩, hfocus⟩, by rw [Draft.lexemes, framesLexemes, List.append_assoc]⟩

/-- The name of a capture was read, and its colon follows. -/
theorem Draft.colon_sound {fs : List Frame} (hn : Nested fs) (hp : awaited fs ≠ .primary)
    (name : NameAt) (colon : Nat) :
    (Draft.mk (.capture name colon :: fs) .primary).Sound ∧
      (Draft.mk (.capture name colon :: fs) .primary).lexemes =
        framesLexemes fs ++ [name.lexeme, ⟨.colon, colon⟩] := by
  have hr : (awaited fs).rank ≤ (Frame.capture name colon).whole.rank :=
    Nat.le_trans (awaited_rank_le hp) (by simp [Frame.whole, Stratum.rank])
  exact Draft.open_sound hn (.capture name colon) trivial hr rfl

/-- A parenthesis is opened where an operand or what a capture takes must follow. -/
theorem Draft.group_sound {fs : List Frame} (hn : Nested fs) (opening : Nat) :
    (Draft.mk (.group opening :: fs) .operand).Sound ∧
      (Draft.mk (.group opening :: fs) .operand).lexemes =
        framesLexemes fs ++ [⟨.openParen, opening⟩] := by
  have hr : (awaited fs).rank ≤ (Frame.group opening).whole.rank := by
    cases h : awaited fs <;> simp [Frame.whole, Stratum.rank]
  exact Draft.open_sound hn (.group opening) trivial hr
    (by simp [Focus.Fits, awaited, Frame.hole])

/-- What begins an operand keeps the invariant, and adds its lexeme. -/
theorem Draft.step?_operand {fs : List Frame} (hn : Nested fs) (hp : awaited fs ≠ .primary)
    {l : Lexeme} {d : Draft} (h : (Draft.mk fs .operand).step? l = some d) :
    d.Sound ∧ d.lexemes = framesLexemes fs ++ [l] := by
  obtain ⟨token, o⟩ := l
  cases token with
  | bang =>
      cases h
      exact Draft.open_sound hn (.negation o) trivial (awaited_rank_le hp)
        (by simp [Focus.Fits, awaited, Frame.hole])
  | name n =>
      cases n with
      | bare text =>
          cases h
          exact ⟨⟨hn, hp⟩, rfl⟩
      | quoted raw =>
          cases h
          exact ⟨⟨hn, hp⟩, rfl⟩
  | star =>
      cases h
      exact ⟨⟨hn, hp, (Tree.Fits.wildcard o).loosen (by decide)⟩, rfl⟩
  | openParen =>
      cases h
      exact Draft.group_sound hn o
  | _ => cases h

/-- What a capture takes keeps the invariant, and adds its lexeme. -/
theorem Draft.step?_primary {fs : List Frame} (hn : Nested fs) {l : Lexeme} {d : Draft}
    (h : (Draft.mk fs .primary).step? l = some d) :
    d.Sound ∧ d.lexemes = framesLexemes fs ++ [l] := by
  obtain ⟨token, o⟩ := l
  cases token with
  | name n =>
      cases n with
      | bare text =>
          cases h
          exact Draft.afterPrimary_sound hn (Tree.Fits.type text o)
      | quoted raw => cases h
  | star =>
      cases h
      exact Draft.afterPrimary_sound hn (Tree.Fits.wildcard o)
  | openParen =>
      cases h
      exact Draft.group_sound hn o
  | _ => cases h

/-- **A step keeps the invariant, and adds its lexeme.** -/
theorem Draft.step?_sound {d d' : Draft} {l : Lexeme} (hd : d.Sound) (h : d.step? l = some d') :
    d'.Sound ∧ d'.lexemes = d.lexemes ++ [l] := by
  obtain ⟨fs, focus⟩ := d
  obtain ⟨hn, hf⟩ := hd
  cases focus with
  | operand =>
      obtain ⟨hs, hl⟩ := Draft.step?_operand hn hf h
      exact ⟨hs, hl.trans (by simp [Draft.lexemes, Focus.lexemes])⟩
  | primary =>
      obtain ⟨hs, hl⟩ := Draft.step?_primary hn h
      exact ⟨hs, hl.trans (by simp [Draft.lexemes, Focus.lexemes])⟩
  | name text offset =>
      have operand : ∀ {e : Draft}, Draft.afterOperand? fs (.type text offset) l = some e →
          e.Sound ∧ e.lexemes = (Draft.mk fs (.name text offset)).lexemes ++ [l] :=
        fun h => Draft.afterOperand?_sound hn hf ((Tree.Fits.type text offset).loosen (by decide)) h
      obtain ⟨token, o⟩ := l
      cases token with
      | colon =>
          cases h
          obtain ⟨hs, hl⟩ := Draft.colon_sound hn hf ⟨.bare text, offset⟩ o
          exact ⟨hs, by rw [hl, Draft.lexemes, List.append_assoc]; rfl⟩
      | _ => exact operand h
  | quoted raw offset =>
      obtain ⟨token, o⟩ := l
      cases token with
      | colon =>
          cases h
          obtain ⟨hs, hl⟩ := Draft.colon_sound hn hf ⟨.quoted raw, offset⟩ o
          exact ⟨hs, by rw [hl, Draft.lexemes, List.append_assoc]; rfl⟩
      | _ => cases h
  | complete t => exact Draft.afterOperand?_sound hn hf.1 hf.2 h
  | firstField t opening =>
      obtain ⟨token, o⟩ := l
      cases token with
      | name n =>
          cases h
          refine ⟨⟨hn, hf⟩, ?_⟩
          simp [Draft.lexemes, Focus.lexemes, FieldList.lexemes, NameAt.lexeme]
      | _ => cases h
  | fields t opening list =>
      obtain ⟨token, o⟩ := l
      cases token with
      | comma =>
          cases h
          exact ⟨⟨hn, hf⟩, by simp [Draft.lexemes, Focus.lexemes]⟩
      | closeBracket =>
          cases h
          refine ⟨⟨hn, hf.1, hf.2.filter opening list o⟩, ?_⟩
          simp [Draft.lexemes, Focus.lexemes, Tree.lexemes]
      | _ => cases h
  | nextField t opening list comma =>
      obtain ⟨token, o⟩ := l
      cases token with
      | name n =>
          cases h
          refine ⟨⟨hn, hf⟩, ?_⟩
          simp [Draft.lexemes, Focus.lexemes, FieldList.lexemes_snoc, NameAt.lexeme]
      | _ => cases h

/-- **Reading keeps the invariant, and adds the lexemes.** -/
theorem Draft.read_sound {d d' : Draft} {ls : List Lexeme} (hd : d.Sound) (h : d.read ls = .ok d') :
    d'.Sound ∧ d'.lexemes = d.lexemes ++ ls := by
  induction ls generalizing d with
  | nil =>
      cases h
      exact ⟨hd, (List.append_nil _).symm⟩
  | cons l ls ih =>
      rw [read] at h
      split at h
      · rename_i e hstep
        obtain ⟨hs, hl⟩ := step?_sound hd hstep
        obtain ⟨hs', hl'⟩ := ih hs h
        exact ⟨hs', by rw [hl', hl, List.append_assoc]; rfl⟩
      · cases h

/-- A tree that comes out of a draft is a selector and has the lexemes of the draft. -/
theorem Draft.finish?_sound {d : Draft} {t : Tree} (hd : d.Sound) (h : d.finish? = some t) :
    t.Fits .relation ∧ t.lexemes = d.lexemes := by
  obtain ⟨fs, focus⟩ := d
  obtain ⟨hn, hf⟩ := hd
  have done : ∀ u : Tree, u.Fits .filtered → awaited fs ≠ .primary →
      close .parent fs u = ([], t) →
        t.Fits .relation ∧ t.lexemes = framesLexemes fs ++ u.lexemes := by
    intro u hu hp hc
    obtain ⟨-, ht, -, hl⟩ := close_sound hn hp (hu.of_awaited hp) (hu.loosen (by decide)) hc
    exact ⟨ht, hl⟩
  cases focus with
  | name text offset =>
      simp only [finish?] at h
      split at h
      · rename_i u hc
        cases h
        exact done _ ((Tree.Fits.type text offset).loosen (by decide)) hf hc
      · cases h
  | complete u =>
      simp only [finish?] at h
      split at h
      · rename_i v hc
        cases h
        exact done _ hf.2 hf.1 hc
      · cases h
  | _ => cases h

end Bibliograph.Selector
