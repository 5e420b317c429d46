import Mathlib.Data.List.Nodup
import Mathlib.Order.Bounds.Basic

/-!
# Parentheses and their partners

An opening parenthesis and a closing one behind it are partners if the parentheses between them are
balanced.  A parenthesis without a partner is a closing one where nothing is open, or an opening one
that is never closed, and the former stand in front of the latter.

Parentheses are matched from the left with the offsets of those that are open.  The first closing
one without a partner is noticed where it stands, and it is the leftmost of all.  Opening ones
without a partner are noticed at the end only, and of these the last one is reported.

Main definitions:

* `Selector.Balanced`, `Selector.Partners`: balanced parentheses, and which two belong together;
* `Selector.unpartnered`, `Selector.unpartneredClosing`: the offsets of those without a partner;
* `Selector.ReportedAt`: which of them is to be reported;
* `Selector.Pending`: parentheses of which some opening ones are still open;
* `Selector.unmatchedIn`, `Selector.Matching`: the matching of a list, and what it comes to.

Main results:

* `Selector.Pending.mem_or_partners`, `Selector.Pending.unpartnered_of_mem`: those still open are
  the ones without a partner;
* `Selector.matching_unmatchedIn`: what the matching comes to, by a step for each parenthesis;
* `Selector.unmatchedIn_eq_some_iff`: **the matching finds the parenthesis to be reported**.
-/

set_option autoImplicit false

namespace Bibliograph.Selector

/-! ### Partners -/

/-- Parentheses of which each has its partner among them. -/
inductive Balanced : List (Char × Nat) → Prop
  | nil : Balanced []
  | group {i j : Nat} {inside rest : List (Char × Nat)} (hinside : Balanced inside)
      (hrest : Balanced rest) : Balanced (('(', i) :: (inside ++ (')', j) :: rest))

/-- The opening parenthesis at `i` and the closing one at `j` belong together. -/
def Partners (ps : List (Char × Nat)) (i j : Nat) : Prop :=
  ∃ before inside after, ps = before ++ ('(', i) :: (inside ++ (')', j) :: after) ∧ Balanced inside

/-- The offsets of the parentheses without a partner. -/
def unpartnered (ps : List (Char × Nat)) : Set Nat :=
  {o | ∃ c, (c, o) ∈ ps ∧ ∀ i j, Partners ps i j → o ≠ i ∧ o ≠ j}

/-- The offsets of the closing parentheses without a partner. -/
def unpartneredClosing (ps : List (Char × Nat)) : Set Nat :=
  {o | o ∈ unpartnered ps ∧ (')', o) ∈ ps}

/-- The parenthesis at `o` is the one to report: the leftmost without a partner if a closing one has
none, and the last one if only opening ones have none. -/
def ReportedAt (ps : List (Char × Nat)) (o : Nat) : Prop :=
  ((unpartneredClosing ps).Nonempty ∧ IsLeast (unpartnered ps) o) ∨
    (unpartneredClosing ps = ∅ ∧ IsGreatest (unpartnered ps) o)

theorem ReportedAt.mem {ps : List (Char × Nat)} {o : Nat} (h : ReportedAt ps o) :
    o ∈ unpartnered ps := by
  rcases h with ⟨-, h⟩ | ⟨-, h⟩
  · exact h.1
  · exact h.1

theorem ReportedAt.unique {ps : List (Char × Nat)} {o o' : Nat} (h : ReportedAt ps o)
    (h' : ReportedAt ps o') : o = o' := by
  rcases h with ⟨hclosing, h⟩ | ⟨hnone, h⟩
  · rcases h' with ⟨-, h'⟩ | ⟨hnone, -⟩
    · exact h.unique h'
    · exact absurd hnone hclosing.ne_empty
  · rcases h' with ⟨hclosing, -⟩ | ⟨-, h'⟩
    · exact absurd hnone hclosing.ne_empty
    · exact h.unique h'

/-- When the leftmost of all is the one to report. -/
theorem reportedAt_and_isLeast_iff {ps : List (Char × Nat)} {o : Nat} :
    ReportedAt ps o ∧ IsLeast (unpartnered ps) o ↔
      IsLeast (unpartnered ps) o ∧ ((unpartneredClosing ps).Nonempty ∨ unpartnered ps = {o}) := by
  constructor
  · rintro ⟨⟨hclosing, -⟩ | ⟨-, hgreatest⟩, hleast⟩
    · exact ⟨hleast, Or.inl hclosing⟩
    · refine ⟨hleast, Or.inr (Set.eq_singleton_iff_unique_mem.2 ⟨hleast.1, fun k hk => ?_⟩)⟩
      exact Nat.le_antisymm (hgreatest.2 hk) (hleast.2 hk)
  · rintro ⟨hleast, hclosing | hone⟩
    · exact ⟨Or.inl ⟨hclosing, hleast⟩, hleast⟩
    · rcases (unpartneredClosing ps).eq_empty_or_nonempty with hnone | hsome
      · refine ⟨Or.inr ⟨hnone, ?_⟩, hleast⟩
        rw [hone]
        exact isGreatest_singleton
      · exact ⟨Or.inl ⟨hsome, hleast⟩, hleast⟩

theorem Partners.append {ps : List (Char × Nat)} {i j : Nat} (h : Partners ps i j)
    (before after : List (Char × Nat)) : Partners (before ++ ps ++ after) i j := by
  obtain ⟨front, inside, back, rfl, hinside⟩ := h
  exact ⟨before ++ front, inside, back ++ after, by simp, hinside⟩

theorem Balanced.append {ps qs : List (Char × Nat)} (h : Balanced ps) (h' : Balanced qs) :
    Balanced (ps ++ qs) := by
  induction h with
  | nil => exact h'
  | group hinside _ _ ih =>
      rw [List.cons_append, List.append_assoc, List.cons_append]
      exact .group hinside ih

/-- In a balanced list every parenthesis has a partner. -/
theorem Balanced.exists_partners {ps : List (Char × Nat)} (h : Balanced ps) {p : Char × Nat}
    (hp : p ∈ ps) : ∃ i j, Partners ps i j ∧ (p.2 = i ∨ p.2 = j) := by
  induction h with
  | nil => cases hp
  | @group i j inside rest hinside hrest ihin ihrest =>
      simp only [List.mem_cons, List.mem_append] at hp
      rcases hp with rfl | hp | rfl | hp
      · exact ⟨i, j, ⟨[], inside, rest, rfl, hinside⟩, Or.inl rfl⟩
      · obtain ⟨k, l, hkl, ho⟩ := ihin hp
        refine ⟨k, l, ?_, ho⟩
        simpa using hkl.append [('(', i)] ((')', j) :: rest)
      · exact ⟨i, j, ⟨[], inside, rest, rfl, hinside⟩, Or.inr rfl⟩
      · obtain ⟨k, l, hkl, ho⟩ := ihrest hp
        refine ⟨k, l, ?_, ho⟩
        simpa using hkl.append (('(', i) :: inside ++ [(')', j)]) []

/-! ### Heights -/

/-- How many more parentheses are opened than closed. -/
def rise : List (Char × Nat) → Int
  | [] => 0
  | p :: ps => (if p.1 = '(' then 1 else -1) + rise ps

@[simp] theorem rise_nil : rise [] = 0 := rfl

@[simp] theorem rise_cons (p : Char × Nat) (ps : List (Char × Nat)) :
    rise (p :: ps) = (if p.1 = '(' then 1 else -1) + rise ps := rfl

@[simp] theorem rise_append (ps qs : List (Char × Nat)) : rise (ps ++ qs) = rise ps + rise qs := by
  induction ps with
  | nil => simp
  | cons p ps ih =>
      rw [List.cons_append, rise_cons, rise_cons, ih]
      omega

theorem Balanced.rise_eq {ps : List (Char × Nat)} (h : Balanced ps) : rise ps = 0 := by
  induction h with
  | nil => rfl
  | group _ _ ihin ihrest => simp [ihin, ihrest]

/-- Nothing is closed that was not opened. -/
def NeverBelow (ps : List (Char × Nat)) : Prop :=
  ∀ qs, qs <+: ps → 0 ≤ rise qs

theorem NeverBelow.append {ps qs : List (Char × Nat)} (h : NeverBelow ps)
    (h' : ∀ rs, rs <+: qs → 0 ≤ rise ps + rise rs) : NeverBelow (ps ++ qs) := by
  intro rs hrs
  rcases List.prefix_or_prefix_of_prefix hrs (List.prefix_append ps qs) with hin | ⟨us, rfl⟩
  · exact h rs hin
  · rw [rise_append]
    exact h' us ((List.prefix_append_right_inj ps).1 hrs)

theorem NeverBelow.opened {ps : List (Char × Nat)} (h : NeverBelow ps) (i : Nat) :
    NeverBelow (('(', i) :: ps) := by
  intro rs hrs
  rcases List.prefix_cons_iff.1 hrs with rfl | ⟨us, rfl, hus⟩
  · exact Int.le_refl _
  · have := h us hus
    simp only [rise_cons, if_true]
    omega

theorem Balanced.neverBelow {ps : List (Char × Nat)} (h : Balanced ps) : NeverBelow ps := by
  induction h with
  | nil =>
      intro rs hrs
      rw [List.prefix_nil.1 hrs]
      exact Int.le_refl _
  | @group i j inside rest hinside _ ihin ihrest =>
      rw [← List.cons_append]
      refine (ihin.opened i).append fun rs hrs => ?_
      rcases List.prefix_cons_iff.1 hrs with rfl | ⟨us, rfl, hus⟩
      · simp [hinside.rise_eq]
      · have := ihrest us hus
        simp only [rise_cons, hinside.rise_eq, if_true]
        rw [if_neg (by decide)]
        omega

/-! ### Parentheses that are still open -/

/-- Parentheses of which those at the offsets of the first list are open, the last one first, and
all others have a partner. -/
inductive Pending : List Nat → List (Char × Nat) → Prop
  | balanced {ps : List (Char × Nat)} (h : Balanced ps) : Pending [] ps
  | opened {o : Nat} {os : List Nat} {ps qs : List (Char × Nat)} (h : Pending os ps)
      (hqs : Balanced qs) : Pending (o :: os) (ps ++ ('(', o) :: qs)

namespace Pending

variable {os : List Nat} {ps : List (Char × Nat)}

theorem append_balanced (h : Pending os ps) {qs : List (Char × Nat)} (hqs : Balanced qs) :
    Pending os (ps ++ qs) := by
  cases h with
  | balanced h => exact .balanced (h.append hqs)
  | opened h hrs =>
      rw [List.append_assoc, List.cons_append]
      exact .opened h (hrs.append hqs)

theorem of_balanced (h : Pending [] ps) : Balanced ps := by
  cases h with
  | balanced h => exact h

/-- A closing parenthesis is the partner of the one that was opened last. -/
theorem closed {i : Nat} (h : Pending (i :: os) ps) (j : Nat) : Pending os (ps ++ [(')', j)]) := by
  cases h with
  | @opened _ _ front inside h hinside =>
      have := h.append_balanced (Balanced.group (i := i) (j := j) hinside .nil)
      simpa using this

/-- Every parenthesis is open or has a partner. -/
theorem mem_or_partners (h : Pending os ps) {p : Char × Nat} (hp : p ∈ ps) :
    (p.1 = '(' ∧ p.2 ∈ os) ∨ ∃ i j, Partners ps i j ∧ (p.2 = i ∨ p.2 = j) := by
  induction h with
  | balanced h => exact Or.inr (h.exists_partners hp)
  | @opened o os front inside _ hinside ih =>
      rcases List.mem_append.1 hp with hp | hp
      · rcases ih hp with ⟨hc, ho⟩ | ⟨i, j, hij, ho⟩
        · exact Or.inl ⟨hc, List.mem_cons_of_mem _ ho⟩
        · exact Or.inr ⟨i, j, by simpa using hij.append [] (('(', o) :: inside), ho⟩
      · rcases List.mem_cons.1 hp with rfl | hp
        · exact Or.inl ⟨rfl, List.mem_cons_self ..⟩
        · obtain ⟨i, j, hij, ho⟩ := hinside.exists_partners hp
          exact Or.inr ⟨i, j, by simpa using hij.append (front ++ [('(', o)]) [], ho⟩

/-- What is open stands in the list, and is not closed behind its place. -/
theorem exists_neverBelow (h : Pending os ps) {o : Nat} (ho : o ∈ os) :
    ∃ before after, ps = before ++ ('(', o) :: after ∧ NeverBelow after := by
  induction h with
  | balanced _ => cases ho
  | @opened i _ front inside _ hinside ih =>
      rcases List.mem_cons.1 ho with rfl | ho
      · exact ⟨front, inside, rfl, hinside.neverBelow⟩
      · obtain ⟨before, after, rfl, hafter⟩ := ih ho
        refine ⟨before, after ++ ('(', i) :: inside, by simp, hafter.append fun rs hrs => ?_⟩
        have hlow := hafter after List.prefix_rfl
        have hhigh := hinside.neverBelow.opened i rs hrs
        omega

end Pending

/-! ### Parentheses without a partner -/

section InOrder

variable {ps : List (Char × Nat)} (hps : (ps.map Prod.snd).Pairwise (· < ·))
include hps

theorem eq_of_offset_eq {p q : Char × Nat} (hp : p ∈ ps) (hq : q ∈ ps) (h : p.2 = q.2) :
    p = q :=
  List.inj_on_of_nodup_map hps.nodup hp hq h

/-- A list of parentheses can be split at one of them in one way only. -/
theorem split_unique {p : Char × Nat} {before after before' after' : List (Char × Nat)}
    (h : ps = before ++ p :: after) (h' : ps = before' ++ p :: after') :
    before = before' ∧ after = after' := by
  have hnodup : ps.Nodup := hps.nodup.of_map
  rw [h, List.nodup_middle, List.nodup_cons, List.mem_append, not_or] at hnodup
  obtain ⟨⟨hbefore, hafter⟩, -⟩ := hnodup
  obtain ⟨hb, -, ha⟩ := (List.append_cons_inj_of_notMem hbefore hafter).1 (h.symm.trans h')
  exact ⟨hb, ha⟩

/-- What is still open has no partner: a closing one would bring the count below its start. -/
theorem Pending.unpartnered_of_mem {os : List Nat} (h : Pending os ps) {o : Nat} (ho : o ∈ os) :
    ('(', o) ∈ ps ∧ o ∈ unpartnered ps := by
  obtain ⟨before, after, hsplit, hafter⟩ := h.exists_neverBelow ho
  have hmem : ('(', o) ∈ ps := by simp [hsplit]
  refine ⟨hmem, '(', hmem, fun i j hij => ⟨?_, ?_⟩⟩
  · rintro rfl
    obtain ⟨before', inside, after', hsplit', hinside⟩ := hij
    obtain ⟨-, rfl⟩ := split_unique hps hsplit hsplit'
    have := hafter (inside ++ [(')', j)]) ⟨after', by simp⟩
    simp [hinside.rise_eq] at this
  · rintro rfl
    obtain ⟨before', inside, after', hsplit', -⟩ := hij
    have hclosing : (')', o) ∈ ps := by simp [hsplit']
    exact absurd (eq_of_offset_eq hps hmem hclosing rfl) (by simp)

/-- A closing parenthesis behind balanced ones has no partner. -/
theorem unpartnered_of_stray {before after : List (Char × Nat)} {o : Nat} (h : Balanced before)
    (hsplit : ps = before ++ (')', o) :: after) : o ∈ unpartneredClosing ps := by
  have hmem : (')', o) ∈ ps := by simp [hsplit]
  refine ⟨⟨')', hmem, fun i j hij => ⟨?_, ?_⟩⟩, hmem⟩
  · rintro rfl
    obtain ⟨before', inside, after', hsplit', -⟩ := hij
    have hopening : ('(', o) ∈ ps := by simp [hsplit']
    exact absurd (eq_of_offset_eq hps hopening hmem rfl) (by simp)
  · rintro rfl
    obtain ⟨before', inside, after', hsplit', hinside⟩ := hij
    obtain ⟨rfl, -⟩ := split_unique hps hsplit
      (by simpa using hsplit' : ps = (before' ++ ('(', i) :: inside) ++ (')', o) :: after')
    -- what is in front of the one that it would close was never closed too often
    have hfront := h.neverBelow before' (List.prefix_append _ _)
    have hrise := h.rise_eq
    simp only [rise_append, rise_cons, hinside.rise_eq, if_true] at hrise
    omega

end InOrder

/-! ### Matching -/

/-- The offset of a parenthesis without a partner in a list, where `opened` are the offsets of the
parentheses that are open, the last one first. -/
def unmatchedIn (opened : List Nat) : List (Char × Nat) → Option Nat
  | [] => opened.head?
  | (c, o) :: ps =>
    if c = '(' then unmatchedIn (o :: opened) ps
    else match opened with
      | [] => some o
      | _ :: opened => unmatchedIn opened ps

section Steps

variable (opened : List Nat) (i o : Nat) (ps : List (Char × Nat))

@[simp] theorem unmatchedIn_opening :
    unmatchedIn opened (('(', o) :: ps) = unmatchedIn (o :: opened) ps := by
  cases opened <;> simp [unmatchedIn]

@[simp] theorem unmatchedIn_closing_nil : unmatchedIn [] ((')', o) :: ps) = some o := by
  simp [unmatchedIn]

@[simp] theorem unmatchedIn_closing_cons :
    unmatchedIn (i :: opened) ((')', o) :: ps) = unmatchedIn opened ps := by
  simp [unmatchedIn]

end Steps

/-- What the matching of parentheses comes to: they are balanced, a closing one stands behind
balanced ones, or some are still open and the last of these is reported. -/
inductive Matching (ps : List (Char × Nat)) : Option Nat → Prop
  | balanced (h : Balanced ps) : Matching ps none
  | stray {before after : List (Char × Nat)} {o : Nat} (h : Balanced before)
      (hsplit : ps = before ++ (')', o) :: after) : Matching ps (some o)
  | unclosed {o : Nat} {os : List Nat} (h : Pending (o :: os) ps) : Matching ps (some o)

/-- **Matching goes on from any parentheses of which some are open.** -/
theorem matching_unmatchedIn {os : List Nat} {ps rest : List (Char × Nat)} (h : Pending os ps)
    (hrest : ∀ p ∈ rest, p.1 = '(' ∨ p.1 = ')') : Matching (ps ++ rest) (unmatchedIn os rest) := by
  induction rest generalizing os ps with
  | nil =>
      rw [List.append_nil]
      cases os with
      | nil => exact .balanced h.of_balanced
      | cons o os => exact .unclosed h
  | cons p rest ih =>
      obtain ⟨c, o⟩ := p
      have hlater : ∀ q ∈ rest, q.1 = '(' ∨ q.1 = ')' := fun q hq =>
        hrest q (List.mem_cons_of_mem _ hq)
      rcases hrest (c, o) (List.mem_cons_self ..) with rfl | rfl
      · rw [unmatchedIn_opening]
        simpa using ih (.opened (o := o) h .nil) hlater
      · cases os with
        | nil => exact .stray h.of_balanced rfl
        | cons i os =>
            rw [unmatchedIn_closing_cons]
            simpa using ih (h.closed o) hlater

/-! ### What is reported -/

section Report

variable {ps : List (Char × Nat)}

theorem Balanced.unpartnered_eq (h : Balanced ps) : unpartnered ps = ∅ := by
  refine Set.eq_empty_of_forall_notMem ?_
  rintro o ⟨c, hmem, halone⟩
  obtain ⟨i, j, hij, ho⟩ := h.exists_partners hmem
  have hne := halone i j hij
  exact ho.elim hne.1 hne.2

variable (hps : (ps.map Prod.snd).Pairwise (· < ·))
include hps

/-- A closing parenthesis behind balanced ones is the leftmost without a partner. -/
theorem isLeast_of_stray {before after : List (Char × Nat)} {o : Nat} (h : Balanced before)
    (hsplit : ps = before ++ (')', o) :: after) : IsLeast (unpartnered ps) o := by
  refine ⟨(unpartnered_of_stray hps h hsplit).1, ?_⟩
  rintro k ⟨c, hmem, halone⟩
  rw [hsplit] at hmem hps
  rcases List.mem_append.1 hmem with hfront | hback
  · obtain ⟨i, j, hij, hk⟩ := h.exists_partners hfront
    have hne := halone i j (by simpa [hsplit] using hij.append [] ((')', o) :: after))
    exact absurd hk (not_or.2 hne)
  · rcases List.mem_cons.1 hback with heq | hlater
    · cases heq
      exact Nat.le_refl _
    · rw [List.map_append, List.map_cons, List.pairwise_append, List.pairwise_cons] at hps
      exact Nat.le_of_lt (hps.2.1.1 k (List.mem_map_of_mem (f := Prod.snd) hlater))

/-- Of the parentheses that stay open the last one is the last without a partner, and no closing one
is without. -/
theorem isGreatest_of_unclosed {o : Nat} {os : List Nat} (h : Pending (o :: os) ps) :
    unpartneredClosing ps = ∅ ∧ IsGreatest (unpartnered ps) o := by
  have hopen : ∀ c k, (c, k) ∈ ps → (∀ i j, Partners ps i j → k ≠ i ∧ k ≠ j) →
      c = '(' ∧ k ∈ o :: os := by
    intro c k hmem halone
    rcases h.mem_or_partners hmem with hk | ⟨i, j, hij, hk⟩
    · exact hk
    · exact absurd hk (not_or.2 (halone i j hij))
  refine ⟨?_, (h.unpartnered_of_mem hps (List.mem_cons_self ..)).2, ?_⟩
  · refine Set.eq_empty_of_forall_notMem ?_
    rintro k ⟨⟨_, -, halone⟩, hmem⟩
    exact absurd (hopen _ _ hmem halone).1 (by decide)
  · rintro k ⟨c, hmem, halone⟩
    rcases List.mem_cons.1 (hopen _ _ hmem halone).2 with rfl | hk
    · exact Nat.le_refl _
    · cases h with
      | @opened _ _ front inside h _ =>
          obtain ⟨before, after, rfl, -⟩ := h.exists_neverBelow hk
          simp only [List.append_assoc, List.map_append, List.map_cons, List.cons_append,
            List.pairwise_append, List.pairwise_cons, List.mem_append, List.mem_cons] at hps
          exact Nat.le_of_lt (hps.2.1.1 o (Or.inr (Or.inl rfl)))

/-- **The matching finds the parenthesis to be reported.** -/
theorem unmatchedIn_eq_some_iff (hside : ∀ p ∈ ps, p.1 = '(' ∨ p.1 = ')') (o : Nat) :
    unmatchedIn [] ps = some o ↔ ReportedAt ps o := by
  have hmatching : Matching ps (unmatchedIn [] ps) := matching_unmatchedIn (.balanced .nil) hside
  cases hr : unmatchedIn [] ps with
  | none =>
      rw [hr] at hmatching
      cases hmatching with
      | balanced h =>
          rw [ReportedAt, h.unpartnered_eq]
          simp [IsLeast, IsGreatest]
  | some r =>
      have hreport : ReportedAt ps r := by
        rw [hr] at hmatching
        cases hmatching with
        | stray h hsplit =>
            exact Or.inl ⟨⟨r, unpartnered_of_stray hps h hsplit⟩, isLeast_of_stray hps h hsplit⟩
        | unclosed h => exact Or.inr (isGreatest_of_unclosed hps h)
      rw [Option.some.injEq]
      constructor
      · rintro rfl
        exact hreport
      · intro h
        exact hreport.unique h

omit hps in
theorem exists_unmatchedIn_of_nonempty (hside : ∀ p ∈ ps, p.1 = '(' ∨ p.1 = ')')
    (hne : (unpartnered ps).Nonempty) : ∃ o, unmatchedIn [] ps = some o := by
  have hmatching : Matching ps (unmatchedIn [] ps) := matching_unmatchedIn (.balanced .nil) hside
  cases hr : unmatchedIn [] ps with
  | some o => exact ⟨o, rfl⟩
  | none =>
      rw [hr] at hmatching
      cases hmatching with
      | balanced h => exact absurd h.unpartnered_eq hne.ne_empty

end Report

end Bibliograph.Selector
