import Bibliograph.Entry.Basic
import Bibliograph.Trail

/-!
# Ancestry

The ancestors of an entry are its parents, their parents and so on.  They are visited generation
by generation, each generation in the order of declaration.  An ancestor that can be reached in
several ways is visited where it is reached first, and only there.

A generation beyond the hundredth is not visited; that there is one is a failure.

Main definitions:

* `Entry.ancestors`: the ancestors;
* `Entry.nearest`: the nearest ancestor with a property, and the ancestors asked on the way;
* `Entry.resolve`: the same, the entry itself being asked first.

Main results:

* `Entry.finds_ancestors_of_no_parents`: an entry without parents has no ancestors;
* `Entry.fresh_nodup`: no entry is visited twice.
-/

set_option autoImplicit false

namespace Bibliograph

/-- The number of generations of ancestors that are visited, and of parent links that a search
follows. -/
def maxGenerations : Nat := 100

/-- Ancestors are nested too deeply. -/
structure NestingFault where
  key : String
  deriving Repr, DecidableEq

/-- What is said about the fault. -/
def NestingFault.message (f : NestingFault) : String :=
  "parents of " ++ Text.quoted f.key ++ " nest deeper than " ++ Number.decimal maxGenerations ++
    " levels"

namespace Entry

/-- The entries that are not among those seen already, each at its first place. -/
def fresh (seen : List Identity) : List Entry → List Entry
  | [] => []
  | e :: es => if e.id ∈ seen then fresh seen es else e :: fresh (e.id :: seen) es

theorem id_not_mem_of_mem_fresh {seen : List Identity} {es : List Entry} {e : Entry}
    (h : e ∈ fresh seen es) : e.id ∉ seen := by
  induction es generalizing seen with
  | nil => simp [fresh] at h
  | cons d ds ih =>
    by_cases hd : d.id ∈ seen
    · exact ih (by simpa [fresh, hd] using h)
    · rw [fresh, if_neg hd] at h
      rcases List.mem_cons.1 h with rfl | h
      · exact hd
      · exact fun hs => ih h (List.mem_cons_of_mem _ hs)

theorem fresh_nodup (seen : List Identity) (es : List Entry) :
    ((fresh seen es).map Entry.id).Nodup := by
  induction es generalizing seen with
  | nil => simp [fresh]
  | cons d ds ih =>
    by_cases hd : d.id ∈ seen
    · simpa [fresh, hd] using ih seen
    · simp only [fresh, hd, if_false, List.map_cons, List.nodup_cons, List.mem_map, not_exists,
        not_and]
      exact ⟨fun e he h => id_not_mem_of_mem_fresh he (by simp [h]), ih _⟩

/-- The ancestors from a generation on, of which at most `levels` more are visited; `key` is the
entry whose ancestors they are. -/
def generations (key : String) : Nat → List Identity → List Entry → Trail NestingFault Entry
  | _, _, [] => .done
  -- entries that were visited before are too deep here all the same
  | 0, _, _ :: _ => .failed ⟨key⟩
  | levels + 1, seen, generation@(_ :: _) =>
    let new := fresh seen generation
    (Trail.ofList new).append fun _ =>
      generations key levels (new.map Entry.id ++ seen) (new.flatMap Entry.parents)

/-- Every ancestor once, the nearest generation first. -/
def ancestors (e : Entry) : Trail NestingFault Entry :=
  generations e.key maxGenerations [] e.parents

theorem finds_ancestors_of_no_parents {e : Entry} (h : e.parents = []) :
    e.ancestors.finds = [] := by
  simp [ancestors, generations, h, maxGenerations]

/-! ### The nearest value -/

/-- The outcome of asking entries one after another for a value. -/
structure Answer (β : Type) where
  asked : List Entry
  outcome : Except NestingFault (Option β)

/-- Asks along a trail until an entry has a value. -/
def askAlong {β : Type} (f : Entry → Option β) : Trail NestingFault Entry → Answer β
  | .done => ⟨[], .ok none⟩
  | .failed e => ⟨[], .error e⟩
  | .found e rest =>
    match f e with
    | some v => ⟨[e], .ok (some v)⟩
    | none =>
      let answer := askAlong f (rest ())
      ⟨e :: answer.asked, answer.outcome⟩

/-- The value of the nearest ancestor that has one. -/
def nearest {β : Type} (f : Entry → Option β) (e : Entry) : Answer β :=
  askAlong f e.ancestors

/-- The value of the entry itself or else of the nearest ancestor that has one. -/
def resolve {β : Type} (f : Entry → Option β) (e : Entry) : Answer β :=
  askAlong f (.found e fun _ => e.ancestors)

/-- The date of the entry or of its nearest ancestor with a date. -/
def dateAny (e : Entry) : Answer Value :=
  e.resolve fun d => d.get? "date"

/-- The web address of the entry or of its nearest ancestor with one. -/
def urlAny (e : Entry) : Answer Value :=
  e.resolve fun d => d.get? "url"

end Entry

end Bibliograph
