import Bibliograph.Proofs.Entry.Nearest

/-!
# Who is asked for a value

A value is asked of an entry and then of its ancestors, until one of them has it.  Along the levels
an ancestor may occur many times; it is asked at its first occurrence, and behind the first one with
a value nobody is asked any more.  So a value that is found hides what is too deep behind it.

Main results:

* `Entry.askAlong_of_first`, `Entry.askAlong_of_no_value`: asking stops at the first value, or it
  goes on to the end of the trail;
* `Entry.Coherent.ancestors_of_first`: the ancestors up to one that does not occur earlier;
* `Entry.least_distance_of_first`: no ancestor with a value is nearer than the first one;
* `Entry.nearest_value_wins`: **the value of the entry or of its nearest ancestor with one**, who is
  asked for it, and when there is none.
-/

set_option autoImplicit false

namespace Bibliograph.Entry

variable {β : Type} {f : Entry → Option β}

/-! ### Asking along a trail -/

/-- Asking stops at the first value. -/
theorem askAlong_of_first {t : Trail NestingFault Entry} {before after : List Entry} {a : Entry}
    {v : β} (ht : t.finds = before ++ a :: after) (hbefore : ∀ d ∈ before, f d = none)
    (ha : f a = some v) : askAlong f t = ⟨before ++ [a], .ok (some v)⟩ := by
  induction t generalizing before with
  | done => simp at ht
  | failed e => simp at ht
  | found d rest ih =>
      rw [Trail.finds_found] at ht
      cases before with
      | nil =>
          obtain ⟨rfl, -⟩ := List.cons.inj ht
          rw [askAlong, ha]
          rfl
      | cons c before =>
          obtain ⟨rfl, hrest⟩ := List.cons.inj ht
          have hd : f d = none := hbefore d (List.mem_cons_self ..)
          have htail := ih () hrest fun c hc => hbefore c (List.mem_cons_of_mem _ hc)
          rw [askAlong, hd, htail]
          rfl

/-- Without a value all finds of the trail are asked, and its ending decides. -/
theorem askAlong_of_no_value {t : Trail NestingFault Entry} (h : ∀ d ∈ t.finds, f d = none) :
    askAlong f t = ⟨t.finds, match t.ending with
      | none => .ok none
      | some fault => .error fault⟩ := by
  induction t with
  | done => rfl
  | failed e => rfl
  | found d rest ih =>
      rw [Trail.finds_found] at h
      have hd : f d = none := h d (List.mem_cons_self ..)
      have htail := ih () fun c hc => h c (List.mem_cons_of_mem _ hc)
      rw [askAlong, hd, htail]
      rfl

/-- Only what a trail finds is asked, in the same order. -/
theorem asked_askAlong_sublist (f : Entry → Option β) (t : Trail NestingFault Entry) :
    (askAlong f t).asked.Sublist t.finds := by
  induction t with
  | done => exact List.Sublist.refl _
  | failed e => exact List.Sublist.refl _
  | found d rest ih =>
      rw [askAlong, Trail.finds_found]
      cases f d with
      | some v => exact List.Sublist.cons_cons d (List.nil_sublist _)
      | none => exact List.Sublist.cons_cons d (ih ())

theorem resolve_of_own_value {e : Entry} {v : β} (he : f e = some v) :
    e.resolve f = ⟨[e], .ok (some v)⟩ := by
  have hfirst : (Trail.found e fun _ => e.ancestors).finds = [] ++ e :: e.ancestors.finds := rfl
  exact askAlong_of_first hfirst (by simp) he

/-! ### The first ancestor with a value -/

/-- What is nearer than an entry occurs in front of it along the levels. -/
theorem mem_before_of_nearer {e : Entry} {before after : List Entry} {a d : Entry} {m n : Nat}
    (hlevels : e.levels maxGenerations = before ++ a :: after) (hn : e.IsAt n a)
    (hn' : n ≤ maxGenerations) (hm : 1 ≤ m) (hd : e.IsAt m d) (hlt : m < n) : d ∈ before := by
  obtain ⟨more, hmore⟩ := exists_levels_eq_append (show m ≤ maxGenerations by omega) e
  have hd' : d ∈ e.levels m := mem_levels_iff.2 ⟨m, hm, Nat.le_refl m, hd.mem⟩
  have ha : a ∉ e.levels m := by
    intro hmem
    obtain ⟨k, -, hk, hlevel⟩ := mem_levels_iff.1 hmem
    exact hn.2 k (by omega) hlevel
  -- the first levels end in front of the entry, since it does not occur in them
  rw [hmore] at hlevels
  rcases List.append_eq_append_iff.1 hlevels with ⟨between, hbefore, -⟩ | ⟨between, hfirst, hrest⟩
  · rw [hbefore]
    exact List.mem_append_left _ hd'
  · cases between with
    | nil =>
        rw [List.append_nil] at hfirst
        rwa [← hfirst]
    | cons c between =>
        obtain ⟨rfl, -⟩ := List.cons.inj hrest
        exact absurd (hfirst ▸ List.mem_append_right _ (List.mem_cons_self ..)) ha

/-- **No ancestor with a value is nearer than the first one** along the levels. -/
theorem least_distance_of_first {e : Entry} {before after : List Entry} {a : Entry}
    (hlevels : e.levels maxGenerations = before ++ a :: after)
    (hbefore : ∀ d ∈ before, f d = none) :
    ∃ n, 1 ≤ n ∧ n ≤ maxGenerations ∧ e.IsAt n a ∧
      ∀ m d, 1 ≤ m → e.IsAt m d → f d ≠ none → n ≤ m := by
  have hmem : a ∈ e.levels maxGenerations := by
    rw [hlevels]
    exact List.mem_append_right _ (List.mem_cons_self ..)
  obtain ⟨n, hlow, hhigh, hn⟩ := mem_levels_iff_isAt.1 hmem
  refine ⟨n, hlow, hhigh, hn, fun m d hm hd hvalue => ?_⟩
  by_contra hlt
  exact hvalue (hbefore d (mem_before_of_nearer hlevels hn hhigh hm hd (by omega)))

namespace Coherent

variable {e : Entry}

/-- The ancestors up to one that does not occur earlier along the levels: in front of it stands
every entry that does, each once. -/
theorem ancestors_of_first (he : e.Coherent) {before after : List Entry} {a : Entry}
    (hlevels : e.levels maxGenerations = before ++ a :: after) (ha : a ∉ before) :
    ∃ more, e.ancestors.finds = fresh [] before ++ a :: more := by
  have hmem : a ∈ e.levels maxGenerations := by
    rw [hlevels]
    exact List.mem_append_right _ (List.mem_cons_self ..)
  have hnew : a.id ∉ before.map Entry.id ++ [] := by
    intro hid
    rw [List.append_nil] at hid
    obtain ⟨c, hc, hsame⟩ := List.mem_map.1 hid
    have hc' : c ∈ e.levels maxGenerations := by
      rw [hlevels]
      exact List.mem_append_left _ hc
    obtain ⟨m, -, -, hlevel⟩ := mem_levels_iff.1 hc'
    obtain rfl : c = a := he.eq_of_mem_levels hlevel hmem hsame
    exact ha hc
  refine ⟨fresh (a.id :: (before.map Entry.id ++ [])) after, ?_⟩
  rw [he.finds_ancestors, hlevels, fresh_append, fresh, if_neg hnew]

/-- The entry is none of its ancestors, and each of these is found once. -/
theorem nodup_ancestors (he : e.Coherent) : ((e :: e.ancestors.finds).map Entry.id).Nodup := by
  rw [List.map_cons, List.nodup_cons, he.finds_ancestors]
  refine ⟨fun hid => ?_, fresh_nodup _ _⟩
  obtain ⟨d, hd, hsame⟩ := List.mem_map.1 hid
  have hd' := mem_of_mem_fresh hd
  obtain rfl : e = d := he.eq_of_mem_levels (m := 0) (by simp) hd' hsame.symm
  obtain ⟨n, hlow, -, hlevel⟩ := mem_levels_iff.1 hd'
  exact not_mem_level_self hlow e hlevel

theorem mem_fresh_of_levels (he : e.Coherent) {before after : List Entry}
    (hlevels : e.levels maxGenerations = before ++ after) (d : Entry) :
    d ∈ fresh [] before ↔ d ∈ before := by
  constructor
  · exact mem_of_mem_fresh
  · intro hd
    refine (mem_fresh_iff fun c hc hid => ?_).2 ⟨hd, List.not_mem_nil⟩
    have hc' : c ∈ e.levels maxGenerations := hlevels ▸ List.mem_append_left _ hc
    have hd' : d ∈ e.levels maxGenerations := hlevels ▸ List.mem_append_left _ hd
    obtain ⟨m, -, -, hlevel⟩ := mem_levels_iff.1 hc'
    exact he.eq_of_mem_levels hlevel hd' hid

/-- **Nobody is asked twice**, whoever has a value. -/
theorem nodup_asked (he : e.Coherent) (f : Entry → Option β) :
    ((e.resolve f).asked.map Entry.id).Nodup :=
  he.nodup_ancestors.sublist ((asked_askAlong_sublist f _).map Entry.id)

/-- Where the entry has no value, the first ancestor with one ends the asking. -/
theorem resolve_of_first (he : e.Coherent) {before after : List Entry} {a : Entry} {v : β}
    (hown : f e = none) (hlevels : e.levels maxGenerations = before ++ a :: after)
    (hbefore : ∀ d ∈ before, f d = none) (ha : f a = some v) :
    e.resolve f = ⟨e :: fresh [] before ++ [a], .ok (some v)⟩ := by
  have hnew : a ∉ before := by
    intro hmem
    rw [hbefore a hmem] at ha
    cases ha
  obtain ⟨more, hfinds⟩ := he.ancestors_of_first hlevels hnew
  have htrail : (Trail.found e fun _ => e.ancestors).finds =
      (e :: fresh [] before) ++ a :: more := by
    rw [Trail.finds_found, hfinds]
    rfl
  refine askAlong_of_first htrail (fun d hd => ?_) ha
  rcases List.mem_cons.1 hd with rfl | hd
  · exact hown
  · exact hbefore d (mem_of_mem_fresh hd)

/-- Where nobody has a value, everybody is asked. -/
theorem resolve_of_no_value (he : e.Coherent) (hown : f e = none)
    (hlevels : ∀ d ∈ e.levels maxGenerations, f d = none) :
    e.resolve f = ⟨e :: e.ancestors.finds, match e.ancestors.ending with
      | none => .ok none
      | some fault => .error fault⟩ := by
  have hall : ∀ d ∈ (Trail.found e fun _ => e.ancestors).finds, f d = none := by
    intro d hd
    rcases List.mem_cons.1 hd with rfl | hd
    · exact hown
    · rw [he.finds_ancestors] at hd
      exact hlevels d (mem_of_mem_fresh hd)
  exact askAlong_of_no_value hall

/-- The ancestors nest too deeply exactly if one at the last distance has a parent. -/
theorem ending_ancestors_eq_some_iff (he : e.Coherent) (fault : NestingFault) :
    e.ancestors.ending = some fault ↔
      fault = ⟨e.key⟩ ∧ ∃ d, e.IsAt maxGenerations d ∧ d.parents ≠ [] := by
  have hlimit : 1 ≤ maxGenerations := by decide
  rw [ancestors, (Visited.start e).ending_generations he e.key hlimit, Nat.zero_add]

/-- What is said where nobody has a value. -/
theorem outcome_of_no_value (he : e.Coherent) (hown : f e = none)
    (hlevels : ∀ d ∈ e.levels maxGenerations, f d = none) :
    (∀ fault, (e.resolve f).outcome = .error fault ↔
      fault = ⟨e.key⟩ ∧ ∃ d, e.IsAt maxGenerations d ∧ d.parents ≠ []) ∧
    ((e.resolve f).outcome = .ok none ↔ ∀ d, e.IsAt maxGenerations d → d.parents = []) := by
  have hfault := he.ending_ancestors_eq_some_iff
  rw [he.resolve_of_no_value hown hlevels]
  cases hending : e.ancestors.ending with
  | none =>
      have hshallow : ∀ d, e.IsAt maxGenerations d → d.parents = [] := by
        intro d hd
        by_contra hparents
        have hdeep := (hfault ⟨e.key⟩).2 ⟨rfl, d, hd, hparents⟩
        rw [hending] at hdeep
        cases hdeep
      refine ⟨fun fault => ⟨(fun h => by cases h), ?_⟩, fun _ => hshallow, fun _ => rfl⟩
      rintro ⟨-, d, hd, hparents⟩
      exact absurd (hshallow d hd) hparents
  | some fault =>
      obtain ⟨hkey, d, hd, hparents⟩ := (hfault fault).1 hending
      refine ⟨fun other => ⟨fun h => ?_, ?_⟩, (fun h => by cases h), fun h => ?_⟩
      · cases h
        exact ⟨hkey, d, hd, hparents⟩
      · rintro ⟨rfl, -⟩
        rw [hkey]
      · exact absurd (h d hd) hparents

end Coherent

/-- **The value of the entry or of its nearest ancestor with one.**

If the entry has a value itself, nobody else is asked.  Otherwise the first ancestor with a value
along the levels, in which all paths of up to a hundred links are followed, gives it: no ancestor
with a value is nearer, and asked are the entry, whatever occurs in front of that ancestor, and that
ancestor, each of them once.  If there is no such ancestor there is no value, and it is a failure
exactly if an ancestor at a distance of a hundred links has a parent.  Dates and web addresses are
looked for in this way, where a field that is set to something empty has no value. -/
theorem nearest_value_wins {e : Entry} (he : e.Coherent) (f : Entry → Option β) :
    (∀ v, f e = some v → e.resolve f = ⟨[e], .ok (some v)⟩) ∧
    (∀ before a after v, f e = none → e.levels maxGenerations = before ++ a :: after →
      (∀ d ∈ before, f d = none) → f a = some v →
      (e.resolve f).outcome = .ok (some v) ∧
      (∃ between, (e.resolve f).asked = e :: between ++ [a] ∧ ∀ d, d ∈ between ↔ d ∈ before) ∧
      ∃ n, e.IsAt n a ∧ ∀ m d, 1 ≤ m → e.IsAt m d → f d ≠ none → n ≤ m) ∧
    (f e = none → (∀ d ∈ e.levels maxGenerations, f d = none) →
      (∃ between, (e.resolve f).asked = e :: between ∧
        ∀ d, d ∈ between ↔ d ∈ e.levels maxGenerations) ∧
      (∀ fault, (e.resolve f).outcome = .error fault ↔
        fault = ⟨e.key⟩ ∧ ∃ d, e.IsAt maxGenerations d ∧ d.parents ≠ []) ∧
      ((e.resolve f).outcome = .ok none ↔ ∀ d, e.IsAt maxGenerations d → d.parents = [])) ∧
    ((e.resolve f).asked.map Entry.id).Nodup ∧
    (e.dateAny = e.resolve fun d => (d.fields.lookup "date").filter Value.isPresent) ∧
    e.urlAny = e.resolve fun d => (d.fields.lookup "url").filter Value.isPresent := by
  refine ⟨fun v hv => resolve_of_own_value hv, ?_, ?_, he.nodup_asked f, rfl, rfl⟩
  · intro before a after v hown hlevels hbefore ha
    rw [he.resolve_of_first hown hlevels hbefore ha]
    obtain ⟨n, -, -, hn, hleast⟩ := least_distance_of_first hlevels hbefore
    exact ⟨rfl, ⟨fresh [] before, rfl, he.mem_fresh_of_levels hlevels⟩, n, hn, hleast⟩
  · intro hown hlevels
    refine ⟨⟨e.ancestors.finds, ?_, fun d => ?_⟩, he.outcome_of_no_value hown hlevels⟩
    · rw [he.resolve_of_no_value hown hlevels]
    · rw [he.finds_ancestors]
      exact he.mem_fresh_of_levels (List.append_nil _).symm d

/-- Of two parents only the second one has a date; the series of both has one too, but it is
farther away. -/
theorem nearest_value_wins_of_second_parent :
    let series : Entry := ⟨[3], "a", .periodical, [("date", .date ⟨2001, none, none⟩)], []⟩
    let second : Entry := ⟨[2], "a", .book, [("date", .date ⟨2002, none, none⟩)], [series]⟩
    let first : Entry := ⟨[1], "a", .book, [("date", .text "")], [series]⟩
    let article : Entry := ⟨[0], "a", .article, [], [first, second]⟩
    article.Coherent ∧ article.dateAny.outcome = .ok (some (.date ⟨2002, none, none⟩)) ∧
      ∃ between, article.dateAny.asked = article :: between ++ [second] ∧
        ∀ d, d ∈ between ↔ d ∈ [first] := by
  intro series second first article
  have hcoherent : article.Coherent := by
    have hmem : article ∈ [article, first, second, series] := List.mem_cons_self ..
    refine Coherent.of_closed hmem ?_ ?_ <;> simp [article, first, second, series]
  obtain ⟨more, hmore⟩ := exists_levels_eq_append (show 1 ≤ maxGenerations by decide) article
  have hlevels : article.levels maxGenerations = [first] ++ second :: more := by
    rw [hmore]
    rfl
  obtain ⟨-, hfirst, -, -, hdate, -⟩ := nearest_value_wins hcoherent
    fun d => (d.fields.lookup "date").filter Value.isPresent
  obtain ⟨houtcome, hasked, -⟩ := hfirst [first] second more (.date ⟨2002, none, none⟩) rfl hlevels
    (fun d hd => by rw [List.mem_singleton.1 hd]; rfl) rfl
  rw [hdate]
  exact ⟨hcoherent, houtcome, hasked⟩

end Bibliograph.Entry
