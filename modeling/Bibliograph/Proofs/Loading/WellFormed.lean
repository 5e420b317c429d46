import Bibliograph.Proofs.Loading.FieldNames
import Bibliograph.Proofs.Loading.Typed

/-!
# Loaded libraries are well formed

From basic data either a library is made or there is a fault of loading, which names the key of an
entry, or else the run breaks off because an integer with too many digits was to be turned into
text.  In a library every entry, at whatever depth, has the key of the entry at the top, the type
that was declared or else a default, and fields that fit their names.

Main definitions:

* `Loading.LoadFault.key?`: the key of the entry that a fault is about;
* `Loading.MadeOf`: what an entry has from the datum that it was made of.

Main results:

* `Loading.key?_of_entryOf`, `Loading.exists_key?_of_libraryOf`: faults of loading name an entry;
* `Loading.Unfolds.madeOf`: **an entry has what was declared for it**;
* `Loading.libraryOf_wellFormed`: a fault that names its entry, a text that is missing, or a
  well-formed library;
* `Loading.overlong_of_numbered_key`: a key without a text is no fault that names an entry.
-/

set_option autoImplicit false

namespace Bibliograph.Loading

/-- The key of the entry that a fault is about; faults of a whole document name none, and neither
does a text that is missing. -/
def LoadFault.key? : LoadFault → Option String
  | duplicateKey d => some d.key
  | unreadable _ => none
  | noMapping => none
  | entryNoMapping key _ => some key
  | ownAncestor key => some key
  | untyped key => some key
  | unknownType key _ => some key
  | field key _ _ => some key
  | overlong => none

variable {s : Store} {key : String}

/-! ### Faults -/

theorem key?_of_typeOf {child : Option EntryType} {d : Datum} {f : LoadFault}
    (h : (typeOf s key child d).result = .error f) (hf : f ≠ .overlong) : f.key? = some key := by
  rcases fault_of_typeOf_eq_error h with rfl | ⟨v, rfl⟩ | ⟨rfl, -⟩
  · rfl
  · rfl
  · exact absurd rfl hf

theorem key?_of_fieldsOf {fields : List (String × Value)} {pairs : List (Value × Datum)}
    {f : LoadFault} (h : fieldsOf s key fields pairs = .error f) (hf : f ≠ .overlong) :
    f.key? = some key := by
  rcases fault_of_fieldsOf_eq_error h with ⟨name, fault, rfl⟩ | ⟨rfl, -⟩
  · rfl
  · exact absurd rfl hf

/-- **A fault of an entry names its key**, also where it is found in an ancestor. -/
theorem key?_of_entryOf {free : List Nat} {id : Identity} {child : Option EntryType} {d : Datum}
    {f : LoadFault} (h : (entryOf s free id key child d).result = .error f) (hf : f ≠ .overlong) :
    f.key? = some key := by
  rcases error_of_entryOf h with ⟨-, rfl⟩ | ⟨place, pairs, rfl, hpairs, h⟩
  · rfl
  rcases h with ⟨-, rfl⟩ | ⟨hfree, h | ⟨type, p, -, h⟩ | h⟩
  · rfl
  · exact key?_of_typeOf h hf
  · exact key?_of_entryOf h hf
  · exact key?_of_fieldsOf h hf
termination_by free.length
decreasing_by exact Store.length_erase_lt hfree

/-- The faults of loading are those of entries, and each names the key of one of the pairs. -/
theorem exists_key?_of_libraryOf {pairs : List (Value × Datum)} {f : LoadFault}
    (h : (libraryOf s pairs).result = .error f) (hf : f ≠ .overlong) :
    ∃ p ∈ pairs, p.1.hasPlain = true ∧ f.key? = some p.1.plain := by
  rw [result_libraryOf] at h
  obtain ⟨p, hp, ⟨-, rfl⟩ | ⟨hkey, rfl | ⟨i, h⟩⟩⟩ := error_of_pushAll h
  · exact absurd rfl hf
  · exact ⟨p, hp, hkey, rfl⟩
  · exact ⟨p, hp, hkey, key?_of_entryOf h hf⟩

/-! ### Entries -/

/-- What an entry has from the datum that it was made of: its key, its type, the types of the
ancestors for which none was declared, and its fields.  The keys and the type of the datum have
texts. -/
structure MadeOf (s : Store) (key : String) (r : Datum) (a : Entry) : Prop where
  key_eq : a.key = key
  named : ∃ pairs, s.mapping? r = some pairs ∧ ∀ p ∈ pairs, p.1.hasPlain = true
  declared : ¬ s.IsUntyped r → s.hasPlain (s.typeDatum r) = true ∧
    EntryType.ofText (s.plain (s.typeDatum r)) = .ok a.type
  chain : ∀ (chain : List Nat) (b : Entry), a.along? chain = some b →
    (∀ link, link ≠ [] → link <+: chain → ∀ x, s.along? r link = some x → s.IsUntyped x) →
    b.type = EntryType.defaultParent^[chain.length] a.type
  fields : ∀ p ∈ a.fields, p.1 ≠ "type" ∧ p.1 ≠ "parent" ∧ FitsField p.1 p.2

theorem exists_of_mem_zip_map {α β γ : Type} {R : α → β → Prop} {g : α → γ} {as : List α}
    {bs : List β} (h : List.Forall₂ R as bs) {c : γ} {b : β} (hmem : (c, b) ∈ (as.map g).zip bs) :
    ∃ a ∈ as, g a = c ∧ R a b := by
  induction h with
  | nil => cases hmem
  | @cons a b' as bs hab _ ih =>
      rcases List.mem_cons.1 hmem with heq | hmem
      · cases heq
        exact ⟨a, List.mem_cons_self .., rfl, hab⟩
      · obtain ⟨a', ha', hboth⟩ := ih hmem
        exact ⟨a', List.mem_cons_of_mem _ ha', hboth⟩

/-- The fields that are made of basic data fit their names, and none stands for the type or the
parents. -/
theorem fits_of_fieldsOf (hs : s.IsBasic) {pairs : List (Value × Datum)}
    (hpairs : ∀ p ∈ pairs, p.2.IsBasic s) {fields : List (String × Value)}
    (h : fieldsOf s key [] pairs = .ok fields) :
    ∀ p ∈ fields, p.1 ≠ "type" ∧ p.1 ≠ "parent" ∧ FitsField p.1 p.2 := by
  obtain ⟨-, vs, hvs, rfl⟩ := fieldsOf_eq_ok_iff.1 h
  rintro ⟨name, v⟩ hmem
  obtain ⟨q, hq, rfl, hv⟩ := exists_of_mem_zip_map hvs (Assoc.mem_of_mem_ofList hmem)
  obtain ⟨hq, hfield⟩ := List.mem_filter.1 hq
  obtain ⟨htype, hparent, hnull⟩ := ne_of_isFieldPair hfield
  exact ⟨htype, hparent, fitsField_of_fieldOf hs (hpairs q hq) hnull hv⟩

/-- **An entry has what was declared for it.** -/
theorem Unfolds.madeOf (hs : s.IsBasic) {id : Identity} {child : Option EntryType} {d : Datum}
    {e : Entry} (h : Unfolds s key id child d e) : MadeOf s key d e where
  key_eq := h.key_eq
  named := by
    obtain ⟨pairs, hpairs, hfields⟩ := h.fields_eq
    exact ⟨pairs, hpairs, (fieldsOf_eq_ok_iff.1 hfields).1⟩
  declared := h.type_of_declared
  chain _ _ hb hchain := h.type_of_chain hb hchain
  fields := by
    obtain ⟨pairs, hpairs, hfields⟩ := h.fields_eq
    exact fits_of_fieldsOf hs (fun p hp => (hs.of_mapping? hpairs p hp).2) hfields

/-! ### Libraries -/

theorem keys_of_libraryOf {pairs : List (Value × Datum)} {l : Library}
    (h : (libraryOf s pairs).result = .ok l) :
    (∀ p ∈ pairs, p.1.hasPlain = true) ∧ l.keys = pairs.map fun p => p.1.plain := by
  obtain ⟨hlength, hat⟩ := forall₂_zipIdx_iff.1 (result_libraryOf_eq_ok_iff.1 h)
  have hentry (i : Nat) (hi : i < pairs.length) : pairs[i].1.hasPlain = true ∧
      Unfolds s pairs[i].1.plain [i] none pairs[i].2 (l.entries.get ⟨i, hlength ▸ hi⟩) :=
    hat i pairs[i] _ (List.getElem?_eq_getElem hi) (List.getElem?_eq_getElem (hlength ▸ hi))
  refine ⟨fun p hp => ?_, List.ext_getElem (by simp [Library.keys, hlength]) fun i _ hi => ?_⟩
  · obtain ⟨i, hi, rfl⟩ := List.mem_iff_getElem.1 hp
    exact (hentry i hi).1
  · rw [List.length_map] at hi
    simpa [Library.keys] using (hentry i hi).2.key_eq

/-- **From basic data comes a fault that names its entry, a text that is missing, or a well-formed
library.**

Texts are missing where an integer with too many digits is in a key of a pair, or in a key or the
declared type of a mapping that parent links lead to.  Only there does the run break off with an
error that is no fault of loading.

The keys of the library are the texts of the keys in order.  Every entry that any number of parent
links lead to from the entry under a key was made of the mapping at the end of the same links, and
it has that key.  Its type is the one that is declared.  Where none is declared there is an entry
that declares it, and along a chain of entries without a declared type the default types of parents
follow one another.  No field is called `type` or `parent`, is unset or holds a list; a date names
an existing month and day, a web address is one, and authors and editors are persons with a name. -/
theorem libraryOf_wellFormed {s : Store} (hs : s.IsBasic) (pairs : List (Value × Datum)) :
    ((libraryOf s pairs).result = .error .overlong ∧ s.IsOverlong pairs) ∨
    (∃ f, (libraryOf s pairs).result = .error f ∧ f ≠ .overlong ∧
      ∃ p ∈ pairs, p.1.hasPlain = true ∧ f.key? = some p.1.plain) ∨
    ∃ l, (libraryOf s pairs).result = .ok l ∧ (∀ p ∈ pairs, p.1.hasPlain = true) ∧
      (l.keys = pairs.map fun p => p.1.plain) ∧
      ∀ (i : Nat) (k : Value) (d : Datum) (e : Entry), pairs[i]? = some (k, d) →
        l.entries[i]? = some e → ∀ (path : List Nat) (a : Entry), e.along? path = some a →
          ∃ r, s.along? d path = some r ∧ MadeOf s k.plain r a ∧ (s.IsUntyped r → path ≠ []) := by
  cases h : (libraryOf s pairs).result with
  | error f =>
      by_cases hf : f = .overlong
      · subst hf
        exact Or.inl ⟨rfl, isOverlong_of_libraryOf h⟩
      · exact Or.inr (Or.inl ⟨f, rfl, hf, exists_key?_of_libraryOf h hf⟩)
  | ok l =>
      obtain ⟨htexts, hkeys⟩ := keys_of_libraryOf h
      refine Or.inr (Or.inr ⟨l, rfl, htexts, hkeys, fun i k d e hd he path a ha => ?_⟩)
      have hunfolds := (unfolds_of_libraryOf h hd he).2
      obtain ⟨r, id, child, hr, hmade⟩ := hunfolds.along_entry ha
      refine ⟨r, hr, hmade.madeOf hs, fun huntyped hpath => ?_⟩
      -- an entry at the top has no declaring entry
      subst hpath
      cases hr
      obtain ⟨c, hc, -⟩ := hunfolds.type_of_untyped huntyped
      cases hc

/-- A chapter of a volume of a series, for neither of which a type is declared, under a number. -/
theorem libraryOf_wellFormed_of_untyped_parents :
    let s : Store := ⟨#[
      .mapping [(.text "type", .leaf (.text "chapter")), (.text "date", .leaf (.day ⟨2020, 2, 29⟩)),
        (.text "parent", .ref 1)],
      .mapping [(.text "author", .ref 3), (.text "parent", .ref 2)],
      .mapping [(.text "title", .leaf (.text "a"))],
      .mapping [(.text "name", .leaf (.text "Berg"))]]⟩
    let series : Entry := ⟨[0, 0, 0], "7", .misc, [("title", .text "a")], []⟩
    let volume : Entry := ⟨[0, 0], "7", .book,
      [("author", .tuple [.person "Berg" .null .null .null .null])], [series]⟩
    let chapter : Entry := ⟨[0], "7", .chapter,
      [("date", .date ⟨2020, some 2, some 29⟩)], [volume]⟩
    s.IsBasic ∧ ∃ l, (libraryOf s [(.int 7, .ref 0)]).result = .ok l ∧ l.keys = ["7"] ∧
      l.entries = [chapter] ∧ ∀ path a, chapter.along? path = some a →
        ∃ r, s.along? (.ref 0) path = some r ∧ MadeOf s "7" r a ∧ (s.IsUntyped r → path ≠ []) := by
  intro s series volume chapter
  have hbasic : s.IsBasic := by
    intro place c hc
    have hmem : c ∈ s.containers := Array.mem_of_getElem? hc
    simp only [s, List.mem_toArray, List.mem_cons, List.not_mem_nil, or_false] at hmem
    have hday : Value.IsScalar (.day ⟨2020, 2, 29⟩) := .day (by decide)
    rcases hmem with rfl | rfl | rfl | rfl <;>
      simp [Container.IsBasic, Datum.IsBasic, Store.get?, s, Value.IsScalar.text, hday]
  have hloaded : (libraryOf s [(.int 7, .ref 0)]).result.map Library.entries = .ok [chapter] := by
    cbv
  rcases libraryOf_wellFormed hbasic [(.int 7, .ref 0)] with
    ⟨hf, -⟩ | ⟨f, hf, -⟩ | ⟨l, hl, -, hkeys, hentries⟩
  · rw [hf] at hloaded
    cases hloaded
  · rw [hf] at hloaded
    cases hloaded
  · rw [hl] at hloaded
    have hchapter : l.entries = [chapter] := Except.ok.inj hloaded
    have hkey : Value.plain (.int 7) = "7" := by decide +kernel
    refine ⟨hbasic, l, hl, ?_, hchapter, fun path a ha => ?_⟩
    · rw [hkeys, List.map_singleton, hkey]
    · rw [← hkey]
      exact hentries 0 (.int 7) (.ref 0) chapter rfl (by rw [hchapter]; rfl) path a ha

/-- A book under a number with too many digits: neither a library nor a fault that names the
entry. -/
theorem overlong_of_numbered_key :
    let s : Store := ⟨#[.mapping [(.text "type", .leaf (.text "book"))]]⟩
    let pairs : List (Value × Datum) := [(.int (Nat.pow 10 Number.digitLimit), .ref 0)]
    s.IsBasic ∧ (∀ p ∈ pairs, p.1.IsScalar) ∧
      (libraryOf s pairs).result = .error .overlong ∧ LoadFault.overlong.key? = none := by
  intro s pairs
  refine ⟨fun place c hc => ?_, fun p hp => ?_, ?_, rfl⟩
  · have hmem : c ∈ s.containers := Array.mem_of_getElem? hc
    simp only [s, List.mem_toArray, List.mem_singleton] at hmem
    subst hmem
    simp [Container.IsBasic, Datum.IsBasic, Value.IsScalar.text]
  · rw [List.mem_singleton.1 hp]
    exact .int _
  · have hlong : (Value.int (Nat.pow 10 Number.digitLimit)).hasPlain = false := by
      refine (Value.IsScalar.int _).hasPlain_eq_false_iff.2 ⟨_, rfl, ?_⟩
      rw [Int.natAbs_natCast]
    rw [result_libraryOf, pushAll, if_neg (by rw [hlong]; exact Bool.false_ne_true)]
    rfl

end Bibliograph.Loading
