import Bibliograph.Library.Request
import Bibliograph.Proofs.Library.Keyed

/-!
# What becomes of a library

A library is told from its list of keys and entries.  What each request replies and leaves behind is
said in terms of this list alone, with one rule for every way that a request can go.  So a run of
requests is a run over lists, and the list at its end can be read off the history: it holds the
entries of the accepted pushes behind which nothing more was done to their keys, in the order of
these pushes.

Main definitions:

* `Library.Answers`: the replies to a request for a list, and the list after it;
* `Library.Follows`: a history that goes from one list to another by these rules, and in which no
  key ever occurs twice or apart from its entry;
* `Library.affects`: what is done to a key, which is pushing an entry under it or removing it;
* `Library.lasting`: the entries of the pushes that last.

Main results:

* `Library.Answers.unique`: the rules leave nothing open;
* `Library.answers_answer`: one request goes by the rules;
* `Library.follows_run`: so does a run of requests, by induction on it;
* `Library.items_run`, `Library.items_run_eq_lasting`: what is left at the end of a run;
* `Library.library_is_list_of_lasting_pushes`: **a library is the list of its lasting pushes**.
-/

set_option autoImplicit false

namespace Bibliograph.Library

/-! ### The rules -/

/-- For a list of keys and entries, the reply to a request, and the list after the request. -/
inductive Answers : List (String × Entry) → Request → Reply → List (String × Entry) → Prop
  | push {ps} {e : Entry} (hnew : e.key ∉ Assoc.keys ps) :
      Answers ps (.push e) .done (ps ++ [(e.key, e)])
  | refusal {ps} {e : Entry} (htaken : e.key ∈ Assoc.keys ps) :
      Answers ps (.push e) (.refused ⟨e.key⟩) ps
  | removal {ps before after key e} (hps : ps = before ++ (key, e) :: after) :
      Answers ps (.remove key) (.given (some e)) (before ++ after)
  | removalOfNone {ps key} (hnone : key ∉ Assoc.keys ps) :
      Answers ps (.remove key) (.given none) ps
  | get {ps key e} (hmem : (key, e) ∈ ps) : Answers ps (.get key) (.given (some e)) ps
  | getNone {ps key} (hnone : key ∉ Assoc.keys ps) : Answers ps (.get key) (.given none) ps
  | index {ps key e} (hmem : (key, e) ∈ ps) : Answers ps (.index key) (.entry e) ps
  | indexMissing {ps key} (hnone : key ∉ Assoc.keys ps) :
      Answers ps (.index key) (.missing ⟨key⟩) ps
  | contains {ps key} {b : Bool} (hb : b = true ↔ key ∈ Assoc.keys ps) :
      Answers ps (.contains key) (.holds b) ps
  | nth {ps} {n : Int} {i : Nat} (hn : n = i) (hi : i < ps.length) :
      Answers ps (.nth n) (.given (some ps[i].2)) ps
  | nthOutside {ps} {n : Int} (hn : n < 0 ∨ (ps.length : Int) ≤ n) :
      Answers ps (.nth n) (.given none) ps
  | keys {ps} : Answers ps .keys (.keys (ps.map Prod.fst)) ps
  | iter {ps} : Answers ps .iter (.entries (ps.map Prod.snd)) ps
  | size {ps} : Answers ps .size (.number ps.length) ps
  | isEmpty {ps} {b : Bool} (hb : b = true ↔ ps = []) : Answers ps .isEmpty (.holds b) ps
  | same {ps} {other : Library} {b : Bool}
      (hb : b = true ↔
        List.Forall₂ (fun p q => p.1 = q.1 ∧ p.2.same q.2 = true) ps other.items) :
      Answers ps (.same other) (.holds b) ps

/-- A history from one list to another: each request has its reply by the rules, and all lists on
the way are kept with distinct keys and every entry under its own key. -/
inductive Follows : List (String × Entry) → History → List (String × Entry) → Prop
  | nil {ps} (hkept : Kept ps) : Follows ps [] ps
  | cons {ps qs qs' request reply history} (hkept : Kept ps)
      (hstep : Answers ps request reply qs) (hrest : Follows qs history qs') :
      Follows ps ((request, reply) :: history) qs'

/-- **The rules leave nothing open**: for a list that is kept, a request has one reply, and there is
one list after it. -/
theorem Answers.unique {ps qs qs' : List (String × Entry)} {r : Request} {reply reply' : Reply}
    (hkept : Kept ps) (h : Answers ps r reply qs) (h' : Answers ps r reply' qs') :
    reply = reply' ∧ qs = qs' := by
  have hpresent : ∀ {key : String} {e : Entry}, (key, e) ∈ ps → key ∉ Assoc.keys ps → False :=
    fun hmem hnone => hnone (List.mem_map_of_mem hmem)
  have hmiddle : ∀ {p : String × Entry} {before after : List (String × Entry)},
      ps = before ++ p :: after → p ∈ ps := by
    intro p before after hps
    rw [hps]
    exact List.mem_append_right _ (List.mem_cons_self ..)
  have hholds : ∀ {b b' : Bool} {p : Prop}, (b = true ↔ p) → (b' = true ↔ p) → b = b' :=
    fun hb hb' => Bool.eq_iff_iff.2 (hb.trans hb'.symm)
  -- where there are two rules for a request, one of them needs what the other one excludes
  cases h with
  | push hnew =>
      cases h' with
      | push _ => exact ⟨rfl, rfl⟩
      | refusal htaken => exact absurd htaken hnew
  | refusal htaken =>
      cases h' with
      | push hnew => exact absurd htaken hnew
      | refusal _ => exact ⟨rfl, rfl⟩
  | removal hps =>
      cases h' with
      | removal hps' =>
          obtain rfl := hkept.entry_eq (hmiddle hps) (hmiddle hps')
          exact ⟨rfl, (hkept.filter_of_eq hps).symm.trans (hkept.filter_of_eq hps')⟩
      | removalOfNone hnone => exact (hpresent (hmiddle hps) hnone).elim
  | removalOfNone hnone =>
      cases h' with
      | removal hps => exact (hpresent (hmiddle hps) hnone).elim
      | removalOfNone _ => exact ⟨rfl, rfl⟩
  | get hmem =>
      cases h' with
      | get hmem' =>
          rw [hkept.entry_eq hmem hmem']
          exact ⟨rfl, rfl⟩
      | getNone hnone => exact (hpresent hmem hnone).elim
  | getNone hnone =>
      cases h' with
      | get hmem => exact (hpresent hmem hnone).elim
      | getNone _ => exact ⟨rfl, rfl⟩
  | index hmem =>
      cases h' with
      | index hmem' =>
          rw [hkept.entry_eq hmem hmem']
          exact ⟨rfl, rfl⟩
      | indexMissing hnone => exact (hpresent hmem hnone).elim
  | indexMissing hnone =>
      cases h' with
      | index hmem => exact (hpresent hmem hnone).elim
      | indexMissing _ => exact ⟨rfl, rfl⟩
  | nth hn hi =>
      cases h' with
      | nth hn' hi' =>
          obtain rfl := Int.ofNat_inj.1 (hn.symm.trans hn')
          exact ⟨rfl, rfl⟩
      | nthOutside hout => omega
  | nthOutside hout =>
      cases h' with
      | nth hn hi => omega
      | nthOutside _ => exact ⟨rfl, rfl⟩
  | contains hb =>
      cases h' with
      | contains hb' =>
          rw [hholds hb hb']
          exact ⟨rfl, rfl⟩
  | isEmpty hb =>
      cases h' with
      | isEmpty hb' =>
          rw [hholds hb hb']
          exact ⟨rfl, rfl⟩
  | same hb =>
      cases h' with
      | same hb' =>
          rw [hholds hb hb']
          exact ⟨rfl, rfl⟩
  | _ =>
      cases h'
      exact ⟨rfl, rfl⟩

/-! ### Runs -/

section Answer

variable (l : Library) (key : String)

theorem answers_push (e : Entry) :
    Answers l.items (.push e) (l.answer (.push e)).1 (l.answer (.push e)).2.items := by
  by_cases htaken : e.key ∈ l.keys
  · rw [answer_push_of_taken htaken]
    refine .refusal ?_
    rw [keys_items]
    exact htaken
  · obtain ⟨m, hpush, hanswer⟩ := exists_answer_push_of_new htaken
    rw [hanswer, items_of_push hpush]
    refine .push ?_
    rw [keys_items]
    exact htaken

theorem answers_remove :
    Answers l.items (.remove key) (.given (l.get? key)) (l.erase key).items := by
  cases hget : l.get? key with
  | some e =>
      obtain ⟨before, after, hitems⟩ := List.append_of_mem (get?_eq_some_iff_mem.1 hget)
      rw [items_erase_of_eq hitems]
      exact .removal hitems
  | none =>
      have hnone := get?_eq_none_iff.1 hget
      rw [items_erase_of_not_mem hnone]
      exact .removalOfNone hnone

theorem answers_get : Answers l.items (.get key) (.given (l.get? key)) l.items := by
  cases hget : l.get? key with
  | some e => exact .get (get?_eq_some_iff_mem.1 hget)
  | none => exact .getNone (get?_eq_none_iff.1 hget)

theorem answers_index :
    Answers l.items (.index key) (l.answer (.index key)).1 (l.answer (.index key)).2.items := by
  rw [answer]
  cases hget : l.get? key with
  | some e => exact .index (get?_eq_some_iff_mem.1 hget)
  | none => exact .indexMissing (get?_eq_none_iff.1 hget)

theorem answers_nth (n : Int) : Answers l.items (.nth n) (.given (l.nth? n)) l.items := by
  by_cases hout : n < 0 ∨ (l.size : Int) ≤ n
  · rw [nth?_eq_none hout]
    refine .nthOutside ?_
    rw [length_items]
    exact hout
  · obtain ⟨i, rfl⟩ : ∃ i : Nat, n = i := ⟨n.toNat, by omega⟩
    have hi : i < l.items.length := by
      rw [length_items]
      omega
    have hentry : l.nth? i = some l.items[i].2 := by
      rw [nth?_natCast, ← map_snd_items, List.getElem?_map, List.getElem?_eq_getElem hi]
      rfl
    rw [hentry]
    exact .nth rfl hi

end Answer

/-- **One request goes by the rules.** -/
theorem answers_answer (l : Library) (r : Request) :
    Answers l.items r (l.answer r).1 (l.answer r).2.items := by
  cases r with
  | push e => exact answers_push l e
  | remove key => exact answers_remove l key
  | get key => exact answers_get l key
  | index key => exact answers_index l key
  | nth n => exact answers_nth l n
  | contains key =>
      refine .contains ?_
      rw [keys_items, contains, List.contains_iff_mem]
  | keys =>
      change Answers l.items .keys (.keys l.keys) l.items
      rw [← keys_items]
      exact .keys
  | iter =>
      change Answers l.items .iter (.entries l.entries) l.items
      rw [← map_snd_items]
      exact .iter
  | size =>
      change Answers l.items .size (.number l.size) l.items
      rw [← length_items]
      exact .size
  | isEmpty =>
      refine .isEmpty ?_
      rw [isEmpty, List.isEmpty_iff, items, List.map_eq_nil_iff]
  | same other => exact .same same_iff

/-- **A run of requests goes by the rules**, and the list is kept in every state. -/
theorem follows_run (l : Library) (rs : List Request) :
    Follows l.items (l.run rs).1 (l.run rs).2.items := by
  induction rs generalizing l with
  | nil => exact .nil (kept_items l)
  | cons r rs ih =>
      rw [run_cons]
      exact .cons (kept_items l) (answers_answer l r) (ih _)

/-! ### What lasts -/

/-- Whether something is done to a key: an accepted push of an entry with the key, or a removal. -/
def affects (key : String) : Request × Reply → Bool
  | (.push e, .done) => e.key == key
  | (.remove k, _) => k == key
  | _ => false

/-- The entries of the accepted pushes behind which nothing is done to their keys, under these keys
and in the order of the pushes. -/
def lasting : History → List (String × Entry)
  | [] => []
  | (.push e, .done) :: history =>
    if history.any (affects e.key) then lasting history else (e.key, e) :: lasting history
  | _ :: history => lasting history

/-- The pairs to which nothing is done in a history. -/
def untouched (history : History) (ps : List (String × Entry)) : List (String × Entry) :=
  ps.filter fun p => !history.any (affects p.1)

section Untouched

variable {history : History} {ps : List (String × Entry)}

theorem untouched_append (ps qs : List (String × Entry)) :
    untouched history (ps ++ qs) = untouched history ps ++ untouched history qs :=
  List.filter_append ..

theorem untouched_cons_of_idle {x : Request × Reply} (h : ∀ p ∈ ps, affects p.1 x = false) :
    untouched (x :: history) ps = untouched history ps := by
  refine List.filter_congr fun p hp => ?_
  rw [List.any_cons, h p hp, Bool.false_or]

theorem lasting_cons_of_idle {x : Request × Reply} (h : ∀ key, affects key x = false) :
    lasting (x :: history) = lasting history := by
  obtain ⟨r, reply⟩ := x
  cases r with
  | push e =>
      cases reply with
      | done =>
          have hself := h e.key
          rw [affects, beq_self_eq_true] at hself
          cases hself
      | _ => rfl
  | _ => rfl

/-- The pairs that a removal leaves are the ones to which the removal does nothing. -/
theorem untouched_removal {key : String} {reply : Reply} :
    untouched history (ps.filter fun p => p.1 != key) =
      untouched ((.remove key, reply) :: history) ps := by
  unfold untouched
  rw [List.filter_filter]
  refine List.filter_congr fun p _ => ?_
  rw [List.any_cons, affects, Bool.not_or, Bool.and_comm, bne, Bool.beq_comm]

/-- A push that is accepted puts its pair behind the others, and there it lasts if nothing is done
to its key later on. -/
theorem lasting_push (e : Entry) :
    lasting ((.push e, .done) :: history) =
      untouched history [(e.key, e)] ++ lasting history := by
  rw [lasting, untouched, List.filter_singleton]
  cases history.any (affects e.key) with
  | true => rfl
  | false => rfl

end Untouched

/-- What one request does to the list of a library is what its place in the history says. -/
theorem untouched_cons (l : Library) (r : Request) (history : History) :
    untouched history (l.answer r).2.items ++ lasting history =
      untouched ((r, (l.answer r).1) :: history) l.items ++
        lasting ((r, (l.answer r).1) :: history) := by
  have hidle : ∀ reply, (∀ key, affects key (r, reply) = false) →
      untouched history l.items ++ lasting history =
        untouched ((r, reply) :: history) l.items ++ lasting ((r, reply) :: history) := by
    intro reply h
    rw [untouched_cons_of_idle fun p _ => h p.1, lasting_cons_of_idle h]
  cases r with
  | push e =>
      by_cases htaken : e.key ∈ l.keys
      · rw [answer_push_of_taken htaken]
        exact hidle _ fun _ => rfl
      · obtain ⟨m, hpush, hanswer⟩ := exists_answer_push_of_new htaken
        -- the key is new, so the push does nothing to the pairs before it
        have hnew : ∀ p ∈ l.items, affects p.1 (.push e, .done) = false := by
          intro p hp
          rw [affects, beq_eq_false_iff_ne]
          intro hkey
          have hmem : p.1 ∈ Assoc.keys l.items := List.mem_map_of_mem hp
          rw [keys_items, ← hkey] at hmem
          exact htaken hmem
        rw [hanswer, untouched_cons_of_idle hnew, lasting_push, items_of_push hpush,
          untouched_append, List.append_assoc]
  | remove key =>
      change untouched history (l.erase key).items ++ lasting history = _
      rw [items_erase, untouched_removal]
      rfl
  | index key =>
      rw [answer]
      cases l.get? key with
      | some e => exact hidle _ fun _ => rfl
      | none => exact hidle _ fun _ => rfl
  | _ => exact hidle _ fun _ => rfl

/-- What is left at the end of a run: the pairs of the start to which nothing was done, and behind
them the pushes that last. -/
theorem items_run (l : Library) (rs : List Request) :
    (l.run rs).2.items = untouched (l.run rs).1 l.items ++ lasting (l.run rs).1 := by
  induction rs generalizing l with
  | nil => simp [run, runAll, untouched, lasting]
  | cons r rs ih =>
      rw [run_cons, ih]
      exact untouched_cons l r _

/-- Accepted pushes of some entries. -/
def pushes (es : List Entry) : History :=
  es.map fun e => (.push e, .done)

theorem lasting_pushes {es : List Entry} (hdistinct : (es.map Entry.key).Nodup)
    (history : History) :
    lasting (pushes es ++ history) =
      untouched history (es.map fun e => (e.key, e)) ++ lasting history := by
  induction es with
  | nil => rfl
  | cons e es ih =>
      rw [List.map_cons, List.nodup_cons] at hdistinct
      have hother : (pushes es).any (affects e.key) = false := by
        rw [pushes, List.any_map, List.any_eq_false]
        intro d hd
        rw [Bool.not_eq_true]
        refine beq_eq_false_iff_ne.2 fun hkey => hdistinct.1 ?_
        rw [← hkey]
        exact List.mem_map_of_mem hd
      have hsame : untouched (pushes es ++ history) [(e.key, e)] =
          untouched history [(e.key, e)] := by
        unfold untouched
        refine List.filter_congr fun p hp => ?_
        obtain rfl := List.mem_singleton.1 hp
        rw [List.any_append, hother, Bool.false_or]
      change lasting ((.push e, .done) :: (pushes es ++ history)) =
        untouched history ([(e.key, e)] ++ es.map fun e => (e.key, e)) ++ lasting history
      rw [lasting_push, ih hdistinct.2, hsame, untouched_append, List.append_assoc]

/-- With its entries as pushes at the beginning of its history, a library is the list of the pushes
that last. -/
theorem items_run_eq_lasting (l : Library) (rs : List Request) :
    (l.run rs).2.items = lasting (pushes l.entries ++ (l.run rs).1) := by
  rw [items_run, lasting_pushes l.distinct]
  rfl

/-- A key that is removed and pushed again moves to the end, and a refused push changes nothing. -/
example :
    let book (key : String) : Entry := ⟨[], key, .book, [], []⟩
    let requests : List Request := [.push (book "a"), .push (book "b"), .push (book "a"),
      .remove "a", .remove "c", .push (book "a"), .push (book "b")]
    (empty.run requests).2.keys = ["b", "a"] :=
  rfl

/-- **A library is the list of its lasting pushes.**  Some entries make a library with just these
entries in order, under their keys, or else the first key that occurs again is refused.  Whatever is
asked of a library then, every request goes by the rules for its list, which is kept in every state,
and at the end the list holds the accepted pushes behind which nothing was done to their keys, in
the order of the pushes, those of the entries at the start in front.  Two libraries are equal
exactly if their lists have the same keys in the same order with equal entries, whatever happened to them
before. -/
theorem library_is_list_of_lasting_pushes :
    (∀ (es : List Entry) (l : Library),
      ofEntries es = .ok l ↔ l.items = es.map fun e => (e.key, e)) ∧
    (∀ (es : List Entry) (d : DuplicateKey),
      ofEntries es = .error d ↔ ∃ before e after, es = before ++ e :: after ∧
      (before.map Entry.key).Nodup ∧ e.key ∈ before.map Entry.key ∧ d = ⟨e.key⟩) ∧
    (∀ (l : Library) (rs : List Request), (l.run rs).1.map Prod.fst = rs ∧
      Follows l.items (l.run rs).1 (l.run rs).2.items ∧
      (l.run rs).2.items = lasting (pushes l.entries ++ (l.run rs).1)) ∧
    ∀ l m : Library, l.same m = true ↔
      List.Forall₂ (fun p q => p.1 = q.1 ∧ p.2.same q.2 = true) l.items m.items := by
  refine ⟨fun _ _ => ofEntries_eq_ok_iff, fun _ _ => ofEntries_eq_error_iff, fun l rs => ?_,
    fun _ _ => same_iff⟩
  exact ⟨map_fst_runAll answer l rs, follows_run l rs, items_run_eq_lasting l rs⟩

end Bibliograph.Library
