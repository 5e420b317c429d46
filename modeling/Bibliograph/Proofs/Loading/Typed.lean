import Bibliograph.Loading.Field
import Bibliograph.Proofs.Date
import Bibliograph.Proofs.Person
import Bibliograph.Proofs.Sequence

/-!
# Typed values from basic data

Decoded data are basic if they are made of nothing but truth values, numbers, texts, days that
exist, lists and mappings.  Whatever the shape of such a datum, a field that is made of it has a
value of the type that its name asks for, or there is no field.

Main definitions:

* `Value.IsScalar`, `Datum.IsBasic`, `Container.IsBasic`, `Store.IsBasic`: basic data;
* `Loading.IsNamedPerson`: the persons with a name;
* `Loading.FitsField`: the values that a field with a name may have.

Main results:

* `Value.IsScalar.hasPlain_eq_false_iff`: only integers with too many digits have no text;
* `Store.plain_ne_empty`: what counts as true has a text that is not empty;
* `Person.name_ne_empty_of_ofText`: a person that is read from text has a name;
* `Loading.dateOf_valid`: a date names an existing month and day, whatever it is read from;
* `Loading.fitsField_of_fieldOf`: **the value of a field fits its name**.
-/

set_option autoImplicit false

namespace Bibliograph

/-! ### Basic data -/

/-- The values without parts that decoded data may hold.  A day is one of the calendar. -/
inductive Value.IsScalar : Value → Prop
  | null : IsScalar .null
  | bool (b : Bool) : IsScalar (.bool b)
  | int (n : Int) : IsScalar (.int n)
  | float (x : Number.Binary64) : IsScalar (.float x)
  | notANumber (origin : Nat) : IsScalar (.notANumber origin)
  | text (s : String) : IsScalar (.text s)
  | day {d : Calendar.Day} (h : d.exists = true) : IsScalar (.day d)
  | moment {m : Calendar.Moment} (h : m.exists = true) : IsScalar (.moment m)

/-- A datum is a scalar or refers to a collection of the store. -/
def Datum.IsBasic (s : Store) : Datum → Prop
  | .leaf v => v.IsScalar
  | .ref place => ∃ c, s.get? place = some c

/-- A collection is a list or a mapping with scalars as keys. -/
def Container.IsBasic (s : Store) : Container → Prop
  | .list items => ∀ d ∈ items, d.IsBasic s
  | .tuple _ => False
  | .mapping pairs => ∀ p ∈ pairs, p.1.IsScalar ∧ p.2.IsBasic s

/-- All collections of the store are lists and mappings of basic data. -/
def Store.IsBasic (s : Store) : Prop :=
  ∀ place c, s.get? place = some c → c.IsBasic s

namespace Store

variable {s : Store}

theorem IsBasic.of_mapping? (hs : s.IsBasic) {d : Datum} {pairs : List (Value × Datum)}
    (h : s.mapping? d = some pairs) : ∀ p ∈ pairs, p.1.IsScalar ∧ p.2.IsBasic s := by
  cases d with
  | leaf v => cases h
  | ref place =>
      rw [mapping?] at h
      split at h
      · rename_i hget
        cases h
        exact hs place _ hget
      · cases h

/-- What is not in a mapping is `null`, which is basic too. -/
theorem isBasic_named {pairs : List (Value × Datum)} (h : ∀ p ∈ pairs, p.2.IsBasic s)
    (name : String) : (named name pairs).IsBasic s := by
  unfold named
  split
  · rename_i hfind
    exact h _ (List.mem_of_find?_eq_some hfind)
  · exact .null

end Store

/-! ### Missing texts -/

/-- Among the scalars only integers with too many digits have no text. -/
theorem Value.IsScalar.hasPlain_eq_false_iff {v : Value} (hv : v.IsScalar) :
    v.hasPlain = false ↔ ∃ n, v = .int n ∧ Nat.pow 10 Number.digitLimit ≤ n.natAbs := by
  cases hv with
  | int n =>
      have hn : (Value.int n).hasPlain = Number.isWithinLimit n := rfl
      rw [hn, Bool.eq_false_iff, ne_eq, Number.isWithinLimit_iff, Nat.not_lt]
      exact ⟨fun h => ⟨n, rfl, h⟩, fun ⟨m, hm, h⟩ => by cases hm; exact h⟩
  | _ => simp [Value.hasPlain, Value.hasLiteral]

/-! ### Texts that are not empty -/

theorem ofList_ne_empty {cs : List Char} (h : cs ≠ []) : String.ofList cs ≠ "" := by
  rwa [ne_eq, String.ofList_eq_empty_iff]

theorem Number.padded_ne_nil (width : Nat) (n : Int) : Number.padded width n ≠ [] := by
  have hfill : ∀ (width n : Nat), Number.zeroFill width (Number.natDigits n) ≠ [] := by
    intro width n h
    exact Nat.toDigits_ne_nil (List.append_eq_nil_iff.1 h).2
  unfold Number.padded
  split
  · exact List.cons_ne_nil _ _
  · exact hfill _ _

theorem Number.layout_write_ne_nil (l : Number.Layout) (d : Number.Decimal) : l.write d ≠ [] := by
  unfold Number.Layout.write
  dsimp only
  split
  · split <;> simp
  · simp

theorem Number.written_ne_empty (x : Number.Binary64) : x.written ≠ "" := by
  cases x with
  | infinite negative => cases negative <;> decide
  | finite negative m e =>
      refine ofList_ne_empty ?_
      cases negative with
      | true => exact List.cons_ne_nil _ _
      | false =>
          by_cases hm : m = 0
          · simp [hm]
          · simp [hm, Number.layout_write_ne_nil]

theorem Calendar.Day.plain_ne_empty (d : Calendar.Day) : d.plain ≠ "" := by
  simp [Calendar.Day.plain, String.append_eq_empty_iff]

/-- A value that counts as true has a text. -/
theorem Value.plain_ne_empty {v : Value} (hv : v.IsScalar) (h : v.isTruthy = true) :
    v.plain ≠ "" := by
  cases hv with
  | null => cases h
  | bool b => cases b <;> decide
  | int n => exact ofList_ne_empty (Number.padded_ne_nil 0 n)
  | float x => exact Number.written_ne_empty x
  | notANumber origin => exact (by decide : "nan" ≠ "")
  | text s => simpa [Value.isTruthy] using h
  | @day d _ => exact d.plain_ne_empty
  | @moment m _ => simp [Value.plain, Calendar.Moment.plain, String.append_eq_empty_iff]

theorem Value.concat_ne_empty {part : String} (h : part ≠ "") (parts : List String) :
    Value.concat (part :: parts) ≠ "" := by
  rw [Value.concat, String.join_cons, ne_eq, String.append_eq_empty_iff]
  exact fun hboth => h hboth.1

/-- The value of a collection whose parts are unfolded, where `free` are the places that are not
being unfolded already. -/
def Store.unfoldParts (s : Store) (free : List Nat) : Container → Value
  | .list items => .list (items.map (s.unfold free))
  | .tuple items => .tuple (items.map (s.unfold free))
  | .mapping pairs => .mapping (pairs.map fun p => (p.1, s.unfold free p.2))

/-- The value of a reference is a collection, and none that is only marked. -/
theorem Store.value_ref {s : Store} {place : Nat} {c : Container} (h : s.get? place = some c) :
    s.value (.ref place) = s.unfoldParts (s.places.erase place) c := by
  have hplace : place ∈ s.places := by
    rw [Store.get?, Array.getElem?_eq_some_iff] at h
    exact List.mem_range.2 h.1
  rw [Store.value, Store.unfold, h]
  simp only [hplace, dif_pos]
  cases c <;> rfl

/-- **What counts as true has a text that is not empty**: collections have at least their
brackets. -/
theorem Store.plain_ne_empty {s : Store} {d : Datum} (hd : d.IsBasic s)
    (h : s.isTruthy d = true) : s.plain d ≠ "" := by
  cases d with
  | leaf v =>
      rw [Store.plain, Store.value, Store.unfold_leaf]
      exact Value.plain_ne_empty hd h
  | ref place =>
      obtain ⟨c, hc⟩ := hd
      rw [Store.plain, Store.value_ref hc]
      cases c with
      | list items => exact Value.concat_ne_empty (by decide) _
      | tuple items =>
          simp only [Store.unfoldParts, Value.plain, Value.literal, Value.tupleText]
          split <;> exact Value.concat_ne_empty (by decide) _
      | mapping pairs => exact Value.concat_ne_empty (by decide) _

/-! ### Persons -/

/-- A family name that is not empty gives a name: of its words one always stays. -/
theorem Person.name_ofParts_ne_empty {family : List Char} (h : family ≠ [])
    (given suffix : List Char) : (Person.ofParts family given suffix).name ≠ "" := by
  by_cases hleading : (Person.splitFamily (Text.words family)).1 = []
  · rw [Person.ofParts_of_no_leading hleading]
    exact ofList_ne_empty h
  · rw [Person.ofParts_of_leading hleading]
    have happend := Person.splitFamily_append (Text.words family)
    have hword : ∀ w ∈ (Person.splitFamily (Text.words family)).2, Text.IsWord w := fun w hw =>
      Text.isWord_of_mem_words (happend ▸ List.mem_append_right _ hw)
    have hne := Person.splitFamily_snd_ne_nil (Person.words_ne_nil hleading)
    exact ofList_ne_empty (Text.joined_ne_nil hne hword)

/-- **A person that is read from text has a name.** -/
theorem Person.name_ne_empty_of_ofText {s : String} {p : Person} (h : Person.ofText s = .ok p) :
    p.name ≠ "" := by
  obtain ⟨family, given, suffix, hne, -, -, -, rfl⟩ := Person.exists_parts_of_ofText h
  exact Person.name_ofParts_ne_empty hne given suffix

/-! ### Dates -/

theorem Date.valid_ofDay {d : Calendar.Day} (h : d.exists = true) : (Date.ofDay d).Valid := by
  simp only [Calendar.Day.exists, Bool.and_eq_true, decide_eq_true_eq] at h
  obtain ⟨⟨⟨⟨⟨-, -⟩, hlow⟩, hhigh⟩, hfirst⟩, hlast⟩ := h
  refine ⟨fun m hm => ?_, fun n hn => ?_⟩
  · cases hm
    exact ⟨hlow, hhigh⟩
  · cases hn
    exact ⟨d.month, rfl, hfirst, hlast⟩

namespace Loading

variable {s : Store} {d : Datum}

/-- **A date names an existing month and day**, whatever it is read from. -/
theorem dateOf_valid (hd : d.IsBasic s) {date : Date} (h : dateOf s d = .ok date) :
    date.Valid := by
  unfold dateOf at h
  split at h
  · cases h
  · cases h
    exact ⟨(fun m hm => by cases hm), (fun n hn => by cases hn)⟩
  · cases h
    cases hd with
    | day hday => exact Date.valid_ofDay hday
  · cases h
    cases hd with
    | moment hmoment =>
        simp only [Calendar.Moment.exists, Bool.and_eq_true] at hmoment
        exact Date.valid_ofDay hmoment.1.1.1.1.1
  · cases hd
  · obtain ⟨text, -, h⟩ := bind_eq_ok_iff.1 h
    exact (Date.ofText_eq_ok_iff.1 (mapError_eq_ok_iff.1 h)).2

/-! ### Fields -/

/-- The persons with a name. -/
def IsNamedPerson (v : Value) : Prop :=
  ∃ name given leading suffix pseudonym, v = .person name given leading suffix pseudonym ∧ name ≠ ""

/-- A person is read from a text with a family name, or made of a mapping with a name. -/
theorem isNamedPerson_of_personOf (hs : s.IsBasic) {v : Value} (h : personOf s d = .ok v) :
    IsNamedPerson v := by
  unfold personOf at h
  split at h
  · obtain ⟨text, -, h⟩ := bind_eq_ok_iff.1 h
    split at h
    · rename_i p hp
      cases h
      exact ⟨_, _, _, _, _, rfl, Person.name_ne_empty_of_ofText hp⟩
    · cases h
  · rename_i pairs hpairs
    dsimp only at h
    split at h
    · rename_i htruthy
      obtain ⟨name, hname, h⟩ := bind_eq_ok_iff.1 h
      cases h
      obtain ⟨-, rfl⟩ := textOf_eq_ok_iff.1 hname
      have hbasic : (named "name" pairs).IsBasic s :=
        Store.isBasic_named (fun p hp => (hs.of_mapping? hpairs p hp).2) "name"
      exact ⟨_, _, _, _, _, rfl, Store.plain_ne_empty hbasic htruthy⟩
    · cases h

/-- The values that a field with this name may have.  No field is unset or holds a list. -/
structure FitsField (name : String) (v : Value) : Prop where
  not_null : v ≠ .null
  not_list : ∀ items, v ≠ .list items
  date : name = "date" → ∃ date : Date, v = .date date ∧ date.Valid
  url : name = "url" → ∃ address : WebAddress, v = .url address
  persons : name = "author" ∨ name = "editor" →
    ∃ persons, v = .tuple persons ∧ ∀ p ∈ persons, IsNamedPerson p

/-- A datum that is neither unset nor a list has no such value either. -/
theorem value_of_not_list (hs : s.IsBasic) (hd : d.IsBasic s) (hnull : d ≠ .leaf .null)
    (hlist : s.list? d = none) : s.value d ≠ .null ∧ ∀ items, s.value d ≠ .list items := by
  cases d with
  | leaf v =>
      rw [Store.value, Store.unfold_leaf]
      refine ⟨fun h => hnull (by rw [h]), fun items h => ?_⟩
      subst h
      cases hd
  | ref place =>
      obtain ⟨c, hc⟩ := hd
      rw [Store.value_ref hc]
      cases c with
      | list items =>
          rw [Store.list?, hc] at hlist
          cases hlist
      | tuple items => exact absurd (hs place _ hc) id
      | mapping pairs => simp [Store.unfoldParts]

/-- **The value of a field fits its name.** -/
theorem fitsField_of_fieldOf (hs : s.IsBasic) (hd : d.IsBasic s) (hnull : d ≠ .leaf .null)
    {name : String} {v : Value} (h : fieldOf s name d = .ok v) : FitsField name v := by
  unfold fieldOf at h
  split at h
  · rename_i hname
    subst hname
    obtain ⟨date, hdate, rfl⟩ := map_eq_ok_iff.1 h
    exact ⟨by simp, by simp, fun _ => ⟨date, rfl, dateOf_valid hd hdate⟩, by simp, by simp⟩
  split at h
  · rename_i hname
    subst hname
    obtain ⟨address, -, rfl⟩ := map_eq_ok_iff.1 h
    exact ⟨by simp, by simp, by simp, fun _ => ⟨address, rfl⟩, by simp⟩
  split at h
  · rename_i hdate hurl hname
    obtain ⟨persons, hpersons, rfl⟩ := map_eq_ok_iff.1 h
    refine ⟨by simp, by simp, fun e => absurd e hdate, fun e => absurd e hurl, fun _ => ?_⟩
    refine ⟨persons, rfl, fun p hp => ?_⟩
    obtain ⟨i, -, hperson⟩ := exists_of_mem_mapM hpersons hp
    exact isNamedPerson_of_personOf hs hperson
  · rename_i hdate hurl hname
    split at h
    · cases h
      exact ⟨by simp, by simp, fun e => absurd e hdate, fun e => absurd e hurl,
        fun e => absurd e hname⟩
    · rename_i hlist
      cases h
      obtain ⟨hvalue, hitems⟩ := value_of_not_list hs hd hnull hlist
      exact ⟨hvalue, hitems, fun e => absurd e hdate, fun e => absurd e hurl,
        fun e => absurd e hname⟩

end Loading

end Bibliograph
