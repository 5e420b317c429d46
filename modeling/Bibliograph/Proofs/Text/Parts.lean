import Bibliograph.Text.Blank
import Mathlib.Data.List.Basic

/-!
# Texts between blanks and separators

A part of a text is what stands between two separators, without the blanks around it.  Parts that
hold no separator and no blank at their ends can be read off a text that they are put together to,
and words can be read off a text that has one space between any two.

Main definitions:

* `Text.Blanks`, `Text.Trimmed`: texts of blanks, and texts without blanks at their ends;
* `Text.IsWord`: nonempty runs without blanks.

Main results:

* `Text.trim_eq_iff`: **what trimming leaves is trimmed and lies between blanks**, and only one
  text is and does;
* `Text.splitOn_eq_iff`: the parts between separators hold none and make up the text;
* `Text.parts_intercalate`: trimmed parts without the separator are read off a list of them;
* `Text.words_joined`: words are read off a text with one space between any two.
-/

set_option autoImplicit false

namespace Bibliograph.Text

/-! ### Blanks at the ends -/

/-- Nothing but blanks. -/
def Blanks (cs : List Char) : Prop :=
  ∀ c ∈ cs, isBlank c = true

/-- No blank stands at either end. -/
structure Trimmed (cs : List Char) : Prop where
  head : ∀ c ∈ cs.head?, isBlank c = false
  last : ∀ c ∈ cs.getLast?, isBlank c = false

theorem trimmed_nil : Trimmed [] :=
  ⟨(fun _ h => by cases h), (fun _ h => by cases h)⟩

theorem trimStart_append {before cs : List Char} (hb : Blanks before)
    (h : ∀ c ∈ cs.head?, isBlank c = false) : trimStart (before ++ cs) = cs := by
  rw [trimStart, List.dropWhile_append_of_pos hb]
  cases cs with
  | nil => rfl
  | cons c cs => rw [List.dropWhile_cons_of_neg (by simp [h c rfl])]

theorem trimEnd_append {after cs : List Char} (ha : Blanks after)
    (h : ∀ c ∈ cs.getLast?, isBlank c = false) : trimEnd (cs ++ after) = cs := by
  have hreverse : trimStart (after.reverse ++ cs.reverse) = cs.reverse := by
    refine trimStart_append (fun c hc => ha c (List.mem_reverse.1 hc)) fun c hc => h c ?_
    rwa [List.head?_reverse] at hc
  rw [trimEnd, List.reverse_append, ← trimStart, hreverse, List.reverse_reverse]

theorem exists_trimStart (cs : List Char) :
    ∃ before, Blanks before ∧ cs = before ++ trimStart cs :=
  ⟨cs.takeWhile isBlank, List.all_eq_true.1 List.all_takeWhile,
    List.takeWhile_append_dropWhile.symm⟩

theorem head?_trimStart (cs : List Char) : ∀ c ∈ (trimStart cs).head?, isBlank c = false := by
  intro c hc
  have := List.head?_dropWhile_not isBlank cs
  rw [← trimStart, hc] at this
  simpa using this

theorem exists_trimEnd (cs : List Char) : ∃ after, Blanks after ∧ cs = trimEnd cs ++ after := by
  obtain ⟨before, hb, h⟩ := exists_trimStart cs.reverse
  refine ⟨before.reverse, fun c hc => hb c (List.mem_reverse.1 hc), ?_⟩
  rw [trimEnd, ← trimStart, ← List.reverse_append, ← h, List.reverse_reverse]

theorem getLast?_trimEnd (cs : List Char) : ∀ c ∈ (trimEnd cs).getLast?, isBlank c = false := by
  intro c hc
  rw [trimEnd, List.getLast?_reverse] at hc
  exact head?_trimStart cs.reverse c hc

/-- **What trimming leaves is trimmed and lies between blanks**, and only one text is and does. -/
theorem trim_eq_iff {cs body : List Char} :
    trim cs = body ↔ Trimmed body ∧
      ∃ before after, Blanks before ∧ Blanks after ∧ cs = before ++ body ++ after := by
  constructor
  · rintro rfl
    obtain ⟨before, hb, hstart⟩ := exists_trimStart cs
    obtain ⟨after, ha, hend⟩ := exists_trimEnd (trimStart cs)
    refine ⟨⟨fun c hc => head?_trimStart cs c ?_, getLast?_trimEnd _⟩, before, after, hb, ha, ?_⟩
    · rw [hend, List.head?_append, ← trim, Option.mem_def.1 hc]
      rfl
    · rw [List.append_assoc, trim, ← hend, ← hstart]
  · rintro ⟨h, before, after, hb, ha, rfl⟩
    cases body with
    | nil =>
        have hall : Blanks (before ++ [] ++ after) := by
          intro c hc
          simp only [List.append_nil, List.mem_append] at hc
          exact hc.elim (hb c) (ha c)
        have hstart := trimStart_append hall trimmed_nil.head
        rw [List.append_nil] at hstart
        rw [trim, hstart]
        rfl
    | cons c cs =>
        rw [trim, List.append_assoc, trimStart_append hb (by simpa using h.head),
          trimEnd_append ha h.last]

theorem trimmed_trim (cs : List Char) : Trimmed (trim cs) :=
  (trim_eq_iff.1 rfl).1

theorem Trimmed.trim_eq {cs : List Char} (h : Trimmed cs) : trim cs = cs :=
  trim_eq_iff.2 ⟨h, [], [], by simp [Blanks], by simp [Blanks], by simp⟩

theorem trimmed_of_not_blank {cs : List Char} (h : ∀ c ∈ cs, isBlank c = false) : Trimmed cs :=
  ⟨fun _ hc => h _ (List.mem_of_mem_head? hc), fun _ hc => h _ (List.mem_of_mem_getLast? hc)⟩

theorem mem_of_mem_trim {c : Char} {cs : List Char} (h : c ∈ trim cs) : c ∈ cs := by
  obtain ⟨-, before, after, -, -, hcs⟩ := trim_eq_iff.1 (rfl : trim cs = trim cs)
  rw [hcs]
  exact List.mem_append_left _ (List.mem_append_right _ h)

/-! ### Separators -/

theorem not_mem_of_mem_splitOn {x : Char} {cs part : List Char} (h : part ∈ cs.splitOn x) :
    x ∉ part := by
  induction cs generalizing part with
  | nil => simp_all
  | cons c cs ih =>
      rw [List.splitOn_cons_eq_if_modifyHead] at h
      split at h
      · rcases List.mem_cons.1 h with rfl | h
        · exact List.not_mem_nil
        · exact ih h
      · rename_i hc
        cases hparts : cs.splitOn x with
        | nil => exact absurd hparts (List.splitOn_ne_nil _ _)
        | cons p ps =>
            rw [hparts] at h ih
            rcases List.mem_cons.1 h with rfl | h
            · have hne : x ≠ c := fun e => hc (beq_iff_eq.2 e.symm)
              simp [hne, ih (List.mem_cons_self ..)]
            · exact ih (List.mem_cons_of_mem _ h)

/-- The parts between separators hold none and make up the text. -/
theorem splitOn_eq_iff {x : Char} {cs : List Char} {parts : List (List Char)} (hne : parts ≠ []) :
    cs.splitOn x = parts ↔ cs = [x].intercalate parts ∧ ∀ p ∈ parts, x ∉ p := by
  constructor
  · rintro rfl
    exact ⟨(List.intercalate_splitOn x).symm, fun p => not_mem_of_mem_splitOn⟩
  · rintro ⟨rfl, h⟩
    exact List.splitOn_intercalate x h hne

/-- The space behind each separator can be counted to the part behind it. -/
theorem intercalate_space (x : Char) (p : List Char) (ps : List (List Char)) :
    [x, ' '].intercalate (p :: ps) = [x].intercalate (p :: ps.map (' ' :: ·)) := by
  induction ps generalizing p with
  | nil => simp
  | cons q qs ih =>
      rw [List.intercalate_cons_cons, ih, List.map_cons, List.intercalate_cons_cons]
      cases qs <;> simp

/-- Trimmed parts without the separator are read off a list of them. -/
theorem parts_intercalate {x : Char} (hspace : x ≠ ' ') {ps : List (List Char)} (hne : ps ≠ [])
    (htrim : ∀ p ∈ ps, Trimmed p) (hx : ∀ p ∈ ps, x ∉ p) :
    (([x, ' '].intercalate ps).splitOn x).map trim = ps := by
  cases ps with
  | nil => exact absurd rfl hne
  | cons p ps =>
      have hparts : ∀ q ∈ p :: ps.map (' ' :: ·), x ∉ q := by
        intro q hq
        rcases List.mem_cons.1 hq with rfl | hq
        · exact hx q (List.mem_cons_self ..)
        · obtain ⟨r, hr, rfl⟩ := List.mem_map.1 hq
          simp [hspace, hx r (List.mem_cons_of_mem _ hr)]
      have hrest : ∀ q ∈ ps, (trim ∘ (' ' :: ·)) q = q := fun q hq =>
        trim_eq_iff.2 ⟨htrim q (List.mem_cons_of_mem _ hq), [' '], [], by simp [Blanks, isBlank],
          by simp [Blanks], by simp⟩
      rw [intercalate_space, List.splitOn_intercalate x hparts (List.cons_ne_nil _ _),
        List.map_cons, List.map_map, (htrim p (List.mem_cons_self ..)).trim_eq,
        List.map_congr_left hrest, List.map_id']

/-! ### Words -/

/-- A nonempty run without blanks. -/
structure IsWord (w : List Char) : Prop where
  ne_nil : w ≠ []
  not_blank : ∀ c ∈ w, isBlank c = false

/-- A run without blanks belongs to the word that was begun in front of it. -/
theorem wordsFrom_append {w : List Char} (h : ∀ c ∈ w, isBlank c = false)
    (word cs : List Char) : wordsFrom word (w ++ cs) = wordsFrom (word ++ w) cs := by
  induction w generalizing word with
  | nil => simp
  | cons c w ih =>
      rw [List.cons_append, wordsFrom, if_neg (by simp [h c (List.mem_cons_self ..)]),
        ih fun d hd => h d (List.mem_cons_of_mem _ hd)]
      simp

/-- Words are read off a text with one space between any two. -/
theorem words_joined {ws : List (List Char)} (h : ∀ w ∈ ws, IsWord w) :
    words ([' '].intercalate ws) = ws := by
  induction ws with
  | nil => rfl
  | cons w ws ih =>
      have hw := h w (List.mem_cons_self ..)
      have hws := ih fun v hv => h v (List.mem_cons_of_mem _ hv)
      have hne : w.isEmpty = false := by simpa using hw.ne_nil
      cases ws with
      | nil =>
          have := wordsFrom_append hw.not_blank [] []
          simpa [words, wordsFrom, hne] using this
      | cons v vs =>
          rw [List.intercalate_cons_cons, words, List.append_assoc,
            wordsFrom_append hw.not_blank]
          have hspace : isBlank ' ' = true := by decide
          simpa [words, wordsFrom, hspace, hne] using hws

theorem joined_append {us vs : List (List Char)} (hu : us ≠ []) (hv : vs ≠ []) :
    [' '].intercalate (us ++ vs) = [' '].intercalate us ++ ' ' :: [' '].intercalate vs := by
  induction us with
  | nil => exact absurd rfl hu
  | cons u us ih =>
      cases us with
      | nil => simp [List.intercalate_cons_of_ne_nil hv]
      | cons u' us =>
          have := ih (List.cons_ne_nil _ _)
          rw [List.cons_append] at this
          rw [List.cons_append, List.cons_append, List.intercalate_cons_cons, this]
          simp

theorem mem_joined {ws : List (List Char)} {c : Char} (h : c ∈ [' '].intercalate ws) :
    c = ' ' ∨ ∃ w ∈ ws, c ∈ w := by
  induction ws with
  | nil => cases h
  | cons w ws ih =>
      cases ws with
      | nil => exact .inr ⟨w, List.mem_cons_self .., by simpa using h⟩
      | cons v vs =>
          rw [List.intercalate_cons_cons, List.append_assoc, List.mem_append,
            List.singleton_append, List.mem_cons] at h
          rcases h with h | h | h
          · exact .inr ⟨w, List.mem_cons_self .., h⟩
          · exact .inl h
          · obtain h | ⟨u, hu, hc⟩ := ih h
            · exact .inl h
            · exact .inr ⟨u, List.mem_cons_of_mem _ hu, hc⟩

theorem joined_ne_nil {ws : List (List Char)} (hne : ws ≠ []) (h : ∀ w ∈ ws, IsWord w) :
    [' '].intercalate ws ≠ [] := by
  obtain ⟨w, ws, rfl⟩ := List.exists_cons_of_ne_nil hne
  have hw := (h w (List.mem_cons_self ..)).ne_nil
  cases ws with
  | nil => simpa using hw
  | cons v vs => simp [List.intercalate_cons_cons]

/-- A text of words starts and ends with a word. -/
theorem trimmed_joined {ws : List (List Char)} (h : ∀ w ∈ ws, IsWord w) :
    Trimmed ([' '].intercalate ws) := by
  induction ws with
  | nil => exact trimmed_nil
  | cons w ws ih =>
      have hw := h w (List.mem_cons_self ..)
      have hrest : ∀ v ∈ ws, IsWord v := fun v hv => h v (List.mem_cons_of_mem _ hv)
      cases ws with
      | nil => simpa using trimmed_of_not_blank hw.not_blank
      | cons v vs =>
          rw [List.intercalate_cons_cons]
          refine ⟨fun c hc => ?_, fun c hc => (ih hrest).last c ?_⟩
          · rw [List.append_assoc, List.head?_append_of_ne_nil _ hw.ne_nil] at hc
            exact hw.not_blank c (List.mem_of_mem_head? hc)
          · rwa [List.getLast?_append_of_ne_nil _ (joined_ne_nil (List.cons_ne_nil _ _) hrest)]
              at hc

theorem mem_wordsFrom {word cs w : List Char} (hword : ∀ c ∈ word, isBlank c = false)
    (h : w ∈ wordsFrom word cs) : IsWord w ∧ ∀ c ∈ w, c ∈ word ++ cs := by
  induction cs generalizing word with
  | nil =>
      by_cases hempty : word.isEmpty
      · simp [wordsFrom, hempty] at h
      · rw [wordsFrom, if_neg hempty, List.mem_singleton] at h
        subst h
        exact ⟨⟨by simpa using hempty, hword⟩, by simp⟩
  | cons c cs ih =>
      rw [wordsFrom] at h
      split at h
      · have hrest : w ∈ wordsFrom [] cs → IsWord w ∧ ∀ d ∈ w, d ∈ word ++ c :: cs := by
          intro h
          obtain ⟨hw, hmem⟩ := ih (by simp) h
          exact ⟨hw, fun d hd => List.mem_append_right _ (List.mem_cons_of_mem _ (hmem d hd))⟩
        split at h
        · exact hrest h
        · rename_i hempty
          rcases List.mem_cons.1 h with rfl | h
          · exact ⟨⟨by simpa using hempty, hword⟩, fun d hd => List.mem_append_left _ hd⟩
          · exact hrest h
      · rename_i hc
        have hword' : ∀ d ∈ word ++ [c], isBlank d = false := by
          intro d hd
          rcases List.mem_append.1 hd with hd | hd
          · exact hword d hd
          · rw [List.mem_singleton.1 hd]
            simpa using hc
        obtain ⟨hw, hmem⟩ := ih hword' h
        exact ⟨hw, by simpa using hmem⟩

theorem isWord_of_mem_words {cs w : List Char} (h : w ∈ words cs) : IsWord w :=
  (mem_wordsFrom (by simp) h).1

theorem mem_of_mem_words {cs w : List Char} (h : w ∈ words cs) : ∀ c ∈ w, c ∈ cs := by
  simpa using (mem_wordsFrom (by simp) h).2

end Bibliograph.Text
