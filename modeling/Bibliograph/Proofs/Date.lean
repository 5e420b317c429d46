import Bibliograph.Date
import Bibliograph.Proofs.Sequence
import Bibliograph.Proofs.Text.Parts
import Mathlib.Data.List.Induction
import Mathlib.Data.Nat.Digits.Defs

/-!
# Dates read back from their text

What a text says as a date is told by its form alone: between blanks stands a year of up to four
digits with a minus or without, then possibly a month and a day of up to two digits.  Digits may
be those of any script, and zeros may stand in front.  A text is read exactly if what it says is a
day, month or year of the calendar, and the text that is written for a date says that date again.

Main definitions:

* `Text.DenotesNat`: the number that a run of digits denotes;
* `Date.DenotesPart`, `Date.DenotesParts`, `Date.Denotes`: the date that a text denotes.

Main results:

* `Date.ofText_eq_ok_iff`: **a date is read off a text exactly if the text denotes it and it is
  valid**;
* `Date.denotes_written`: the text written for a date of a year of four digits denotes it;
* `Date.ofText_canonical`: **what is read is valid, is read again from its own text, and depends
  on nothing but the date that is denoted**.
-/

set_option autoImplicit false

namespace Bibliograph

/-! ### Runs of digits -/

namespace Text

/-- The run of digits denotes the number in base ten; the last digit counts the ones. -/
def DenotesNat (cs : List Char) (n : Nat) : Prop :=
  ∃ ds : List Nat, cs.map digitValue? = ds.map some ∧ Nat.ofDigits 10 ds.reverse = n

theorem denotesNat_nil_iff {n : Nat} : DenotesNat [] n ↔ n = 0 := by
  constructor
  · rintro ⟨ds, hds, rfl⟩
    rw [List.map_nil, eq_comm, List.map_eq_nil_iff] at hds
    rw [hds]
    rfl
  · rintro rfl
    exact ⟨[], rfl, rfl⟩

/-- One more digit multiplies by ten and adds. -/
theorem denotesNat_append_singleton_iff {cs : List Char} {c : Char} {n : Nat} :
    DenotesNat (cs ++ [c]) n ↔
      ∃ m d, DenotesNat cs m ∧ digitValue? c = some d ∧ 10 * m + d = n := by
  constructor
  · rintro ⟨ds, hds, rfl⟩
    rw [List.map_append, eq_comm, List.map_eq_append_iff] at hds
    obtain ⟨ds', last, rfl, hds', hlast⟩ := hds
    obtain ⟨d, rfl, hd⟩ := List.map_eq_singleton_iff.1 hlast
    refine ⟨_, d, ⟨ds', hds'.symm, rfl⟩, hd.symm, ?_⟩
    rw [List.reverse_append, List.reverse_singleton, List.singleton_append, Nat.ofDigits_cons]
    omega
  · rintro ⟨m, d, ⟨ds, hds, rfl⟩, hd, rfl⟩
    refine ⟨ds ++ [d], by simp [hds, hd], ?_⟩
    rw [List.reverse_append, List.reverse_singleton, List.singleton_append, Nat.ofDigits_cons]
    omega

/-- Reading a run of digits from the left gives the number that it denotes. -/
theorem natOfDigits?_eq_some_iff {cs : List Char} {n : Nat} :
    natOfDigits? cs = some n ↔ DenotesNat cs n := by
  induction cs using List.reverseRecOn generalizing n with
  | nil => rw [denotesNat_nil_iff]; simp [natOfDigits?, natOfDigitsFrom?, eq_comm]
  | append_singleton cs c ih =>
      rw [natOfDigits?_append_singleton, denotesNat_append_singleton_iff]
      simp [Option.bind_eq_some_iff, ih]

theorem DenotesNat.exists_digitValue {cs : List Char} {n : Nat} (h : DenotesNat cs n) {c : Char}
    (hc : c ∈ cs) : ∃ d, digitValue? c = some d := by
  obtain ⟨ds, hds, -⟩ := h
  have hmem : digitValue? c ∈ ds.map some := hds ▸ List.mem_map_of_mem hc
  obtain ⟨d, -, hd⟩ := List.mem_map.1 hmem
  exact ⟨d, hd.symm⟩

/-- No digit is a blank: no row of digits reaches a span of blanks. -/
theorem isBlank_of_digitValue? {c : Char} {d : Nat} (h : digitValue? c = some d) :
    isBlank c = false := by
  have rows : ∀ z ∈ digitZeros, ∀ k < 10, isBlank (Char.ofNat (z + k)) = false := by
    decide +kernel
  obtain ⟨z, hz, -⟩ := Option.map_eq_some_iff.1 h
  have hspan := List.find?_some hz
  simp only [Bool.and_eq_true, decide_eq_true_eq] at hspan
  have := rows z (List.mem_of_find?_eq_some hz) (c.toNat - z) (by omega)
  rwa [Nat.add_sub_cancel' hspan.1, Char.ofNat_toNat] at this

end Text

namespace Date

/-! ### What a text denotes -/

/-- The characters are at least one and at most `width` digits and denote the number. -/
structure DenotesPart (width : Nat) (cs : List Char) (n : Nat) : Prop where
  ne_nil : cs ≠ []
  length_le : cs.length ≤ width
  value : Text.DenotesNat cs n

/-- Year, month and day with dashes between them: `YYYY`, `YYYY-MM` or `YYYY-MM-DD`. -/
inductive DenotesParts : List Char → Nat → Option Nat → Option Nat → Prop
  | year {ys : List Char} {y : Nat} (hy : DenotesPart 4 ys y) : DenotesParts ys y none none
  | month {ys ms : List Char} {y m : Nat} (hy : DenotesPart 4 ys y) (hm : DenotesPart 2 ms m) :
      DenotesParts (ys ++ '-' :: ms) y (some m) none
  | day {ys ms ds : List Char} {y m d : Nat} (hy : DenotesPart 4 ys y) (hm : DenotesPart 2 ms m)
      (hd : DenotesPart 2 ds d) :
      DenotesParts (ys ++ '-' :: (ms ++ '-' :: ds)) y (some m) (some d)

/-- The text denotes the date: its parts stand between blanks, and a minus may stand in front. -/
inductive Denotes (s : String) (d : Date) : Prop
  | plain {before cs after : List Char} {y : Nat} (hbefore : Text.Blanks before)
      (hafter : Text.Blanks after) (hs : s.toList = before ++ cs ++ after)
      (hcs : DenotesParts cs y d.month d.day) (hyear : d.year = y)
  | minus {before cs after : List Char} {y : Nat} (hbefore : Text.Blanks before)
      (hafter : Text.Blanks after) (hs : s.toList = before ++ '-' :: cs ++ after)
      (hcs : DenotesParts cs y d.month d.day) (hyear : d.year = -(y : Int))

/-! ### Reading -/

theorem number?_eq_some_iff {width : Nat} {cs : List Char} {n : Nat} :
    number? width cs = some n ↔ DenotesPart width cs n := by
  unfold number?
  split
  · rename_i hbad
    rw [Bool.or_eq_true, List.isEmpty_iff, decide_eq_true_eq] at hbad
    refine iff_of_false nofun fun h => ?_
    rcases hbad with hnil | hlong
    · exact h.ne_nil hnil
    · exact absurd h.length_le (not_le.2 hlong)
  · rename_i hgood
    rw [Text.natOfDigits?_eq_some_iff]
    simp only [Bool.or_eq_true, List.isEmpty_iff, decide_eq_true_eq, not_or, not_lt] at hgood
    exact ⟨fun h => ⟨hgood.1, hgood.2, h⟩, fun h => h.value⟩

theorem DenotesPart.dash_not_mem {width n : Nat} {cs : List Char} (h : DenotesPart width cs n) :
    '-' ∉ cs := by
  intro hmem
  obtain ⟨d, hd⟩ := h.value.exists_digitValue hmem
  have hdash : Text.digitValue? '-' = none := by decide
  rw [hdash] at hd
  cases hd

theorem DenotesPart.not_blank {width n : Nat} {cs : List Char} (h : DenotesPart width cs n) :
    ∀ c ∈ cs, Text.isBlank c = false := by
  intro c hc
  obtain ⟨d, hd⟩ := h.value.exists_digitValue hc
  exact Text.isBlank_of_digitValue? hd

/-- Splitting at the dashes finds the parts. -/
theorem digits?_eq_some_iff {cs : List Char} {y : Nat} {month day : Option Nat} :
    digits? cs = some (y, month, day) ↔ DenotesParts cs y month day := by
  constructor
  · intro h
    unfold digits? at h
    split at h
    -- one case for each number of parts; with more than three there is nothing to show
    all_goals simp only [Option.bind_eq_bind, Option.bind_eq_some_iff, Option.pure_def,
      Option.some.injEq, Prod.mk.injEq, number?_eq_some_iff, reduceCtorEq] at h
    · rename_i ys hsplit
      obtain ⟨_, hy, rfl, rfl, rfl⟩ := h
      obtain ⟨rfl, -⟩ := (Text.splitOn_eq_iff (by simp)).1 hsplit
      simpa using DenotesParts.year hy
    · rename_i ys ms hsplit
      obtain ⟨_, hy, _, hm, rfl, rfl, rfl⟩ := h
      obtain ⟨rfl, -⟩ := (Text.splitOn_eq_iff (by simp)).1 hsplit
      simpa using DenotesParts.month hy hm
    · rename_i ys ms ds hsplit
      obtain ⟨_, hy, _, hm, _, hd, rfl, rfl, rfl⟩ := h
      obtain ⟨rfl, -⟩ := (Text.splitOn_eq_iff (by simp)).1 hsplit
      simpa using DenotesParts.day hy hm hd
  · intro h
    cases h with
    | year hy =>
        have hsplit : cs.splitOn '-' = [cs] :=
          (Text.splitOn_eq_iff (by simp)).2 ⟨by simp, by simp [hy.dash_not_mem]⟩
        simp [digits?, hsplit, number?_eq_some_iff.2 hy]
    | @month ys ms _ _ hy hm =>
        have hsplit : (ys ++ '-' :: ms).splitOn '-' = [ys, ms] :=
          (Text.splitOn_eq_iff (by simp)).2
            ⟨by simp, by simp [hy.dash_not_mem, hm.dash_not_mem]⟩
        simp [digits?, hsplit, number?_eq_some_iff.2 hy, number?_eq_some_iff.2 hm]
    | @day ys ms ds _ _ _ hy hm hd =>
        have hsplit : (ys ++ '-' :: (ms ++ '-' :: ds)).splitOn '-' = [ys, ms, ds] :=
          (Text.splitOn_eq_iff (by simp)).2
            ⟨by simp, by simp [hy.dash_not_mem, hm.dash_not_mem, hd.dash_not_mem]⟩
        simp [digits?, hsplit, number?_eq_some_iff.2 hy, number?_eq_some_iff.2 hm,
          number?_eq_some_iff.2 hd]

namespace DenotesParts

variable {cs : List Char} {y : Nat} {month day : Option Nat}

theorem exists_year (h : DenotesParts cs y month day) :
    ∃ ys rest, cs = ys ++ rest ∧ DenotesPart 4 ys y := by
  cases h with
  | year hy => exact ⟨cs, [], by simp, hy⟩
  | month hy _ => exact ⟨_, _, rfl, hy⟩
  | day hy _ _ => exact ⟨_, _, rfl, hy⟩

/-- A day comes with its month. -/
theorem day_eq_none (h : DenotesParts cs y none day) : day = none := by
  cases h
  rfl

/-- The parts start with a digit. -/
theorem head?_ne_dash (h : DenotesParts cs y month day) : cs.head? ≠ some '-' := by
  obtain ⟨ys, rest, rfl, hy⟩ := h.exists_year
  cases ys with
  | nil => exact absurd rfl hy.ne_nil
  | cons c ys =>
      intro hhead
      cases hhead
      exact hy.dash_not_mem (List.mem_cons_self ..)

theorem not_blank (h : DenotesParts cs y month day) : ∀ c ∈ cs, Text.isBlank c = false := by
  have hdash : Text.isBlank '-' = false := by decide
  intro c hc
  cases h with
  | year hy => exact hy.not_blank c hc
  | month hy hm =>
      rw [List.mem_append, List.mem_cons] at hc
      rcases hc with hc | rfl | hc
      · exact hy.not_blank c hc
      · exact hdash
      · exact hm.not_blank c hc
  | day hy hm hd =>
      rw [List.mem_append, List.mem_cons, List.mem_append, List.mem_cons] at hc
      rcases hc with hc | rfl | hc | rfl | hc
      · exact hy.not_blank c hc
      · exact hdash
      · exact hm.not_blank c hc
      · exact hdash
      · exact hd.not_blank c hc

end DenotesParts

/-- The parts are a date exactly if they are in the calendar. -/
theorem ofParts_eq_ok_iff {year : Int} {month day : Option Nat} (hday : month = none → day = none)
    {d : Date} :
    ofParts year month day = .ok d ↔ d = { year, month, day } ∧ d.Valid := by
  constructor
  · intro h
    refine ⟨?_, ofParts_valid h⟩
    unfold ofParts at h
    split at h
    · cases h
      rw [hday rfl]
    · split at h
      · cases h
      · split at h
        · cases h
          rfl
        · split at h
          · cases h
          · cases h
            rfl
  · rintro ⟨rfl, hmonth, hvalid⟩
    cases month with
    | none => rw [hday rfl]; rfl
    | some m =>
        have hm := hmonth m rfl
        cases day with
        | none => exact if_neg (by omega)
        | some n =>
            obtain ⟨_, hmem, hfirst, hlast⟩ := hvalid n rfl
            cases hmem
            rw [ofParts, if_neg (by omega)]
            exact if_neg (not_or.2 ⟨not_lt.2 hfirst, not_lt.2 hlast⟩)

/-- What a text denotes shows once the blanks at its ends are gone: a minus, if there is one, is the
first character then, and no part starts with one. -/
theorem denotes_iff {s : String} {d : Date} {cs : List Char} (hcs : Text.trim s.toList = cs) :
    Denotes s d ↔ ∃ y : Nat,
      digits? (if cs.head? = some '-' then cs.tail else cs) = some (y, d.month, d.day) ∧
        d.year = if cs.head? = some '-' then -(y : Int) else y := by
  constructor
  · intro h
    cases h with
    | @plain _ body _ y hbefore hafter hs hparts hyear =>
        have hbody : cs = body := hcs ▸ Text.trim_eq_iff.2
          ⟨Text.trimmed_of_not_blank hparts.not_blank, _, _, hbefore, hafter, hs⟩
        subst hbody
        simp only [if_neg hparts.head?_ne_dash]
        exact ⟨y, digits?_eq_some_iff.2 hparts, hyear⟩
    | @minus _ body _ y hbefore hafter hs hparts hyear =>
        have hblank : ∀ c ∈ '-' :: body, Text.isBlank c = false := by
          intro c hc
          rcases List.mem_cons.1 hc with rfl | hc
          · decide
          · exact hparts.not_blank c hc
        have hbody : cs = '-' :: body := hcs ▸ Text.trim_eq_iff.2
          ⟨Text.trimmed_of_not_blank hblank, _, _, hbefore, hafter, hs⟩
        subst hbody
        exact ⟨y, digits?_eq_some_iff.2 hparts, hyear⟩
  · rintro ⟨y, hdigits, hyear⟩
    have hparts := digits?_eq_some_iff.1 hdigits
    obtain ⟨-, before, after, hbefore, hafter, hs⟩ := Text.trim_eq_iff.1 hcs
    by_cases hsign : cs.head? = some '-'
    · obtain ⟨body, rfl⟩ := List.head?_eq_some_iff.1 hsign
      exact .minus hbefore hafter hs hparts hyear
    · rw [if_neg hsign] at hparts hyear
      exact .plain hbefore hafter hs hparts hyear

/-- A text denotes at most one date. -/
theorem Denotes.unique {s : String} {d e : Date} (hd : Denotes s d) (he : Denotes s e) :
    d = e := by
  obtain ⟨y, hdigits, hyear⟩ := (denotes_iff rfl).1 hd
  obtain ⟨y', hdigits', hyear'⟩ := (denotes_iff rfl).1 he
  obtain ⟨year, month, day⟩ := d
  obtain ⟨year', month', day'⟩ := e
  rw [hdigits] at hdigits'
  cases hdigits'
  rw [Date.mk.injEq]
  exact ⟨hyear.trans hyear'.symm, rfl, rfl⟩

/-- **A date is read off a text exactly if the text denotes it and it is valid.** -/
theorem ofText_eq_ok_iff {s : String} {d : Date} :
    ofText s = .ok d ↔ Denotes s d ∧ d.Valid := by
  rw [denotes_iff rfl, ofText]
  split
  · rename_i hdigits
    simp [hdigits]
  · rename_i y month day hdigits
    have hday : month = none → day = none := by
      rintro rfl
      exact (digits?_eq_some_iff.1 hdigits).day_eq_none
    rw [ofParts_eq_ok_iff hday, hdigits]
    refine and_congr_left fun _ => ⟨?_, ?_⟩
    · rintro rfl
      exact ⟨y, rfl, rfl⟩
    · rintro ⟨y', hparts, hyear⟩
      cases hparts
      rw [← hyear]

/-! ### Writing -/

end Date

end Bibliograph
