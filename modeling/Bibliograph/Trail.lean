/-!
# Trails

A trail is what a search finds, in order, as far as anyone asks: each find comes with a suspended
rest.  A trail ends because there is nothing more, or because the search fails.

Main definitions:

* `Trail`: the trails;
* `Trail.finds`, `Trail.ending`: the view of a trail, what it finds and the failure that ends it;
* `Trail.ofList`, `Trail.append`, `Trail.map`, `Trail.filter`, `Trail.each`: trails from trails;
* `Trail.first`: the first find;
* `Trail.take`: the first few finds, and how the trail goes on.

Main results:

* `Trail.finds_append`, `Trail.finds_map`, `Trail.finds_filter`, `Trail.finds_each`: each operation
  through the view.
-/

set_option autoImplicit false

namespace Bibliograph

/-- The finds of a search with its suspended rest. -/
inductive Trail (ε α : Type) where
  | done
  | failed (e : ε)
  | found (a : α) (rest : Unit → Trail ε α)

namespace Trail

variable {ε α β : Type}

/-! ### The view of a trail -/

/-- Everything that the trail finds. -/
def finds : Trail ε α → List α
  | done => []
  | failed _ => []
  | found a rest => a :: (rest ()).finds

/-- The failure that ends the trail, if one does. -/
def ending : Trail ε α → Option ε
  | done => none
  | failed e => some e
  | found _ rest => (rest ()).ending

@[simp] theorem finds_done : (done : Trail ε α).finds = [] := rfl

@[simp] theorem finds_failed (e : ε) : (failed e : Trail ε α).finds = [] := rfl

@[simp] theorem finds_found (a : α) (rest : Unit → Trail ε α) :
    (found a rest).finds = a :: (rest ()).finds := rfl

@[simp] theorem ending_done : (done : Trail ε α).ending = none := rfl

@[simp] theorem ending_failed (e : ε) : (failed e : Trail ε α).ending = some e := rfl

@[simp] theorem ending_found (a : α) (rest : Unit → Trail ε α) :
    (found a rest).ending = (rest ()).ending := rfl

/-! ### Trails from trails -/

/-- The trail that finds the items of a list. -/
def ofList : List α → Trail ε α
  | [] => done
  | a :: as => found a fun _ => ofList as

@[simp] theorem finds_ofList (as : List α) : (ofList as : Trail ε α).finds = as := by
  induction as <;> simp_all [ofList]

@[simp] theorem ending_ofList (as : List α) : (ofList as : Trail ε α).ending = none := by
  induction as <;> simp_all [ofList]

/-- The first trail, followed by the second. -/
def append : Trail ε α → (Unit → Trail ε α) → Trail ε α
  | done, next => next ()
  | failed e, _ => failed e
  | found a rest, next => found a fun _ => append (rest ()) next

theorem finds_append (t : Trail ε α) (next : Unit → Trail ε α) :
    (t.append next).finds = if t.ending.isSome then t.finds else t.finds ++ (next ()).finds := by
  induction t with
  | done => simp [append]
  | failed e => simp [append]
  | found a rest ih => simp only [append, finds_found, ih, ending_found]; split <;> simp_all

theorem ending_append (t : Trail ε α) (next : Unit → Trail ε α) :
    (t.append next).ending = t.ending.or (next ()).ending := by
  induction t with
  | done => simp [append]
  | failed e => simp [append]
  | found a rest ih => simp [append, ih]

/-- The trail with a function applied to every find. -/
def map (f : α → β) : Trail ε α → Trail ε β
  | done => done
  | failed e => failed e
  | found a rest => found (f a) fun _ => map f (rest ())

@[simp] theorem finds_map (f : α → β) (t : Trail ε α) : (t.map f).finds = t.finds.map f := by
  induction t <;> simp_all [map]

@[simp] theorem ending_map (f : α → β) (t : Trail ε α) : (t.map f).ending = t.ending := by
  induction t <;> simp_all [map]

/-- The finds with a property. -/
def filter (p : α → Bool) : Trail ε α → Trail ε α
  | done => done
  | failed e => failed e
  | found a rest => if p a then found a fun _ => filter p (rest ()) else filter p (rest ())

@[simp] theorem finds_filter (p : α → Bool) (t : Trail ε α) :
    (t.filter p).finds = t.finds.filter p := by
  induction t with
  | done => rfl
  | failed e => rfl
  | found a rest ih => by_cases h : p a <;> simp [filter, h, ih]

@[simp] theorem ending_filter (p : α → Bool) (t : Trail ε α) :
    (t.filter p).ending = t.ending := by
  induction t with
  | done => rfl
  | failed e => rfl
  | found a rest ih => by_cases h : p a <;> simp [filter, h, ih]

/-- The trails of the items of a list, one after another. -/
def each (as : List α) (f : α → Trail ε β) : Trail ε β :=
  match as with
  | [] => done
  | a :: as => (f a).append fun _ => each as f

theorem finds_each {as : List α} {f : α → Trail ε β} (h : ∀ a ∈ as, (f a).ending = none) :
    (each as f).finds = as.flatMap fun a => (f a).finds := by
  induction as with
  | nil => rfl
  | cons a as ih =>
    simp only [List.mem_cons, forall_eq_or_imp] at h
    simp [each, finds_append, h.1, ih h.2]

/-! ### Walking a trail -/

/-- The first find; a trail that fails before it has none. -/
def first : Trail ε α → Except ε (Option α)
  | done => .ok none
  | failed e => .error e
  | found a _ => .ok (some a)

/-- How a trail goes on behind the finds that were asked for. -/
inductive Beyond (ε : Type) where
  | nothing
  | failure (e : ε)
  | more
  deriving Repr

/-- The first `n` finds, and how the trail goes on. -/
def take : Nat → Trail ε α → List α × Beyond ε
  | _, done => ([], .nothing)
  | _, failed e => ([], .failure e)
  | 0, found _ _ => ([], .more)
  | n + 1, found a rest =>
    let (as, beyond) := take n (rest ())
    (a :: as, beyond)

end Trail

end Bibliograph
