import Bibliograph.Person
import Bibliograph.Proofs.Text.Parts

/-!
# Persons read back from their text

The text written for a person holds the parts of the name that there are, so a part behind a
missing one moves up.  Of a person that is read from text only the suffix can stand behind a
missing part: the given name, as in `Doe, , Jr`, which is written `Doe, Jr`.

Main definitions:

* `Person.IsPart`: what stands between commas;
* `Person.shownFamily`: the family name as it is written, with its prefix;
* `Person.movedUp`: the person whose suffix takes the place of a missing given name.

Main results:

* `Person.written_ofParts`: the text holds the parts that there are;
* `Person.ofParts_shownFamily`: family name and prefix are found again in it;
* `Person.ofText_written`: **what is read back is the person with its suffix moved up**, which is
  the same person exactly if a suffix comes with a given name.
-/

set_option autoImplicit false

namespace Bibliograph.Person

/-! ### The parts of a name -/

/-- What stands between two commas, without the blanks around it. -/
structure IsPart (cs : List Char) : Prop where
  trimmed : Text.Trimmed cs
  comma_not_mem : ',' ∉ cs

theorem isPart_nil : IsPart [] :=
  ⟨Text.trimmed_nil, List.not_mem_nil⟩

/-- A person that is read from text is made of a family name and up to two further parts. -/
theorem exists_parts_of_ofText {s : String} {p : Person} (h : ofText s = .ok p) :
    ∃ family given suffix, family ≠ [] ∧ IsPart family ∧ IsPart given ∧ IsPart suffix ∧
      p = ofParts family given suffix := by
  have hpart : ∀ cs ∈ (s.toList.splitOn ',').map Text.trim, IsPart cs := by
    intro cs hcs
    obtain ⟨piece, hpiece, rfl⟩ := List.mem_map.1 hcs
    exact ⟨Text.trimmed_trim piece,
      fun hcomma => Text.not_mem_of_mem_splitOn hpiece (Text.mem_of_mem_trim hcomma)⟩
  unfold ofText at h
  split at h
  · cases h
  · cases h
  · rename_i family hne hparts
    cases h
    simp only [hparts, List.mem_singleton, forall_eq] at hpart
    exact ⟨family, [], [], hne, hpart, isPart_nil, isPart_nil, rfl⟩
  · rename_i family given hne hparts
    cases h
    simp only [hparts, List.mem_cons, List.not_mem_nil, or_false, forall_eq_or_imp,
      forall_eq] at hpart
    exact ⟨family, given, [], hne, hpart.1, hpart.2, isPart_nil, rfl⟩
  · rename_i family given suffix hne hparts
    cases h
    simp only [hparts, List.mem_cons, List.not_mem_nil, or_false, forall_eq_or_imp,
      forall_eq] at hpart
    exact ⟨family, given, suffix, hne, hpart.1, hpart.2.1, hpart.2.2, rfl⟩
  · cases h

/-! ### The family name -/

/-- The family name as it is written: the words of a name with a prefix have one space between
any two. -/
def shownFamily (family : List Char) : List Char :=
  if (splitFamily (Text.words family)).1 = [] then family
  else [' '].intercalate (Text.words family)

section Family

variable {family : List Char}

theorem ofParts_of_no_leading (h : (splitFamily (Text.words family)).1 = [])
    (given suffix : List Char) :
    ofParts family given suffix =
      { name := String.ofList family, given := part? given, suffix := part? suffix } := by
  simp [ofParts, h]

theorem ofParts_of_leading (h : (splitFamily (Text.words family)).1 ≠ [])
    (given suffix : List Char) :
    ofParts family given suffix =
      { name := joinWords (splitFamily (Text.words family)).2
        leading := some (joinWords (splitFamily (Text.words family)).1)
        given := part? given, suffix := part? suffix } := by
  simp [ofParts, h]

theorem words_ne_nil (h : (splitFamily (Text.words family)).1 ≠ []) : Text.words family ≠ [] := by
  intro hwords
  rw [hwords] at h
  exact h rfl

/-- Further parts do not bear on the family name and its prefix. -/
theorem ofParts_eq (given suffix : List Char) :
    ofParts family given suffix =
      { ofParts family [] [] with given := part? given, suffix := part? suffix } := by
  by_cases h : (splitFamily (Text.words family)).1 = []
  · simp only [ofParts_of_no_leading h]
  · simp only [ofParts_of_leading h]

theorem IsPart.shownFamily (h : IsPart family) : IsPart (shownFamily family) := by
  unfold Person.shownFamily
  split
  · exact h
  · refine ⟨Text.trimmed_joined fun _ => Text.isWord_of_mem_words, fun hcomma => ?_⟩
    obtain hspace | ⟨w, hw, hcomma⟩ := Text.mem_joined hcomma
    · cases hspace
    · exact h.comma_not_mem (Text.mem_of_mem_words hw ',' hcomma)

theorem shownFamily_ne_nil (h : family ≠ []) : shownFamily family ≠ [] := by
  unfold shownFamily
  split
  · exact h
  · rename_i hleading
    exact Text.joined_ne_nil (words_ne_nil hleading) fun _ => Text.isWord_of_mem_words

/-- Family name and prefix are found again in the family name as it is written. -/
theorem ofParts_shownFamily (given suffix : List Char) :
    ofParts (shownFamily family) given suffix = ofParts family given suffix := by
  unfold shownFamily
  split
  · rfl
  · rename_i hleading
    have hwords : Text.words ([' '].intercalate (Text.words family)) = Text.words family :=
      Text.words_joined fun _ => Text.isWord_of_mem_words
    rw [ofParts_of_leading (by rwa [hwords]), ofParts_of_leading hleading, hwords]

end Family

/-! ### Writing and reading -/

theorem part?_nil : part? [] = none := rfl

theorem part?_of_ne_nil {cs : List Char} (h : cs ≠ []) : part? cs = some (String.ofList cs) := by
  simp [part?, h]

/-- A part is shown if there is one. -/
theorem filter_part? (cs : List Char) : (part? cs).filter (· ≠ "") = part? cs := by
  by_cases h : cs = []
  · rw [h]
    rfl
  · have hne : String.ofList cs ≠ "" := by rwa [ne_eq, String.ofList_eq_empty_iff]
    simp [part?_of_ne_nil h, hne]

/-- The further parts that there are. -/
def furtherParts (given suffix : List Char) : List (List Char) :=
  [given, suffix].filter (· ≠ [])

/-- Behind the family name stand the further parts that there are. -/
theorem writtenParts_eq {name : String} {leading : Option String} {family : List Char}
    (h : writtenParts name leading none none = String.ofList family) (given suffix : List Char) :
    writtenParts name leading (part? given) (part? suffix) =
      String.ofList ([',', ' '].intercalate (family :: furtherParts given suffix)) := by
  rw [← String.toList_inj] at h ⊢
  by_cases hgiven : given = [] <;> by_cases hsuffix : suffix = []
  · simp_all [writtenParts, furtherParts, part?_nil]
  · simp_all [writtenParts, furtherParts, part?_nil, part?_of_ne_nil]
  · simp_all [writtenParts, furtherParts, part?_nil, part?_of_ne_nil]
  · simp_all [writtenParts, furtherParts, part?_of_ne_nil]

/-- The text holds the parts that there are. -/
theorem written_ofParts (family given suffix : List Char) :
    (ofParts family given suffix).written =
      String.ofList ([',', ' '].intercalate
        (shownFamily family :: furtherParts given suffix)) := by
  unfold written
  by_cases h : (splitFamily (Text.words family)).1 = []
  · rw [ofParts_of_no_leading h]
    simp only [filter_part?]
    apply writtenParts_eq
    simp [writtenParts, shownFamily, h]
  · rw [ofParts_of_leading h]
    simp only [filter_part?]
    apply writtenParts_eq
    -- prefix and name are words of the family name, so the text has all its words
    have happend := splitFamily_append (Text.words family)
    have hword : ∀ w ∈ (splitFamily (Text.words family)).1, Text.IsWord w := fun w hw =>
      Text.isWord_of_mem_words (happend ▸ List.mem_append_left _ hw)
    have hleading : some (joinWords (splitFamily (Text.words family)).1) = part? _ :=
      (part?_of_ne_nil (Text.joined_ne_nil h hword)).symm
    have hjoined := Text.joined_append h (splitFamily_snd_ne_nil (words_ne_nil h))
    rw [happend] at hjoined
    rw [hleading, filter_part?, ← hleading, ← String.toList_inj]
    simp [writtenParts, shownFamily, h, joinWords, hjoined]

/-- The parts are read off the text in their order: without a given name the suffix comes where the
given name is read. -/
theorem ofText_intercalate {family given suffix : List Char} (hne : family ≠ [])
    (hfamily : IsPart family) (hgiven : IsPart given) (hsuffix : IsPart suffix) :
    ofText (String.ofList ([',', ' '].intercalate (family :: furtherParts given suffix))) =
      .ok (if given = [] then ofParts family suffix [] else ofParts family given suffix) := by
  have hparts : ∀ cs ∈ family :: furtherParts given suffix, IsPart cs := by
    intro cs hcs
    rcases List.mem_cons.1 hcs with rfl | hcs
    · exact hfamily
    · obtain rfl | rfl := by simpa using List.mem_of_mem_filter hcs
      · exact hgiven
      · exact hsuffix
  have hsplit := Text.parts_intercalate (x := ',') (by decide) (List.cons_ne_nil _ _)
    (fun cs hcs => (hparts cs hcs).trimmed) fun cs hcs => (hparts cs hcs).comma_not_mem
  rw [ofText, String.toList_ofList, hsplit]
  obtain ⟨c, family, rfl⟩ := List.exists_cons_of_ne_nil hne
  by_cases hg : given = [] <;> by_cases hs : suffix = [] <;> simp [furtherParts, hg, hs]

/-- The person whose suffix takes the place of a missing given name. -/
def movedUp (p : Person) : Person :=
  match p.given with
  | none => { p with given := p.suffix, suffix := none }
  | some _ => p

theorem movedUp_eq_self_iff (p : Person) :
    p.movedUp = p ↔ (p.given = none → p.suffix = none) := by
  obtain ⟨name, given, leading, suffix, pseudonym⟩ := p
  cases given with
  | none => cases suffix <;> simp [movedUp]
  | some g => simp [movedUp]

theorem movedUp_ofParts (family given suffix : List Char) :
    (ofParts family given suffix).movedUp =
      if given = [] then ofParts family suffix [] else ofParts family given suffix := by
  split
  · rename_i hgiven
    -- both sides have the family name, the prefix and `suffix` as the given name
    rw [hgiven, ofParts_eq [] suffix, ofParts_eq suffix []]
    rfl
  · rename_i hgiven
    rw [ofParts_eq given suffix, part?_of_ne_nil hgiven]
    rfl

/-- The text is the same: a missing part leaves no gap in it. -/
theorem written_movedUp (p : Person) : p.movedUp.written = p.written := by
  obtain ⟨name, given, leading, suffix, pseudonym⟩ := p
  cases given with
  | none => cases suffix <;> simp [movedUp, written, writtenParts]
  | some g => rfl

/-- **What is read back is the person with its suffix moved up.**  The family name, its prefix and
the text itself stay, and the person is the same exactly if a suffix comes with a given name. -/
theorem ofText_written {s : String} {p : Person} (h : ofText s = .ok p) :
    ofText p.written = .ok p.movedUp ∧ p.movedUp.name = p.name ∧
      p.movedUp.leading = p.leading ∧ p.movedUp.written = p.written ∧
      (p.movedUp = p ↔ (p.given = none → p.suffix = none)) := by
  obtain ⟨hname, hleading⟩ : p.movedUp.name = p.name ∧ p.movedUp.leading = p.leading := by
    unfold movedUp
    split <;> exact ⟨rfl, rfl⟩
  refine ⟨?_, hname, hleading, p.written_movedUp, p.movedUp_eq_self_iff⟩
  obtain ⟨family, given, suffix, hne, hfamily, hgiven, hsuffix, rfl⟩ := exists_parts_of_ofText h
  rw [written_ofParts, movedUp_ofParts,
    ofText_intercalate (shownFamily_ne_nil hne) hfamily.shownFamily hgiven hsuffix]
  simp only [ofParts_shownFamily]

/-- A name of four parts is read back, and a suffix without a given name moves up. -/
theorem ofText_written_of_four_parts :
    let berg : Person := { name := "Berg", leading := "van den", given := "J.", suffix := "Jr" }
    let doe : Person := { name := "Doe", suffix := "Jr" }
    ofText " van  den Berg,J. , Jr" = .ok berg ∧ ofText berg.written = .ok berg ∧
      ofText "Doe, , Jr" = .ok doe ∧ ofText doe.written = .ok doe.movedUp ∧
      doe.movedUp.name = doe.name ∧ doe.movedUp.written = doe.written ∧ doe.movedUp ≠ doe := by
  intro berg doe
  have hberg : ofText " van  den Berg,J. , Jr" = .ok berg := by decide +kernel
  have hdoe : ofText "Doe, , Jr" = .ok doe := by decide +kernel
  obtain ⟨hback, hname, -, htext, hsame⟩ := ofText_written hdoe
  exact ⟨hberg, (ofText_written hberg).1, hdoe, hback, hname, htext,
    fun h => absurd (hsame.1 h rfl) (by decide)⟩

/-- Without a given name the suffix is read back as one. -/
theorem suffix_read_as_given :
    ofText "Doe, , Jr" = .ok { name := "Doe", suffix := "Jr" } ∧
      written { name := "Doe", suffix := "Jr" } = "Doe, Jr" ∧
      ofText "Doe, Jr" = .ok { name := "Doe", given := "Jr" } ∧
      ofText (written { name := "Doe", suffix := "Jr" }) ≠
        .ok { name := "Doe", suffix := "Jr" } := by
  decide +kernel

end Bibliograph.Person
