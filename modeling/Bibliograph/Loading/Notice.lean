import Bibliograph.EntryType
import Bibliograph.Value.Written

/-!
# Notices

What happens while a library is loaded and searched can be followed through notices.  A computation
that may fail keeps the notices it gave before it failed.

Main definitions:

* `Loading.Notice`: what can be noticed, with its weight and its text;
* `Loading.Noted`: a result with the notices on the way to it.

Main results:

* `Loading.Noted.result_bind`, `Loading.Noted.notices_bind`: the two parts of a sequence.
-/

set_option autoImplicit false

namespace Bibliograph.Loading

/-- The weights of notices, and the levels from which on notices are shown. -/
inductive Weight where
  | debug
  | info
  | warning
  | error
  | critical
  deriving Repr, DecidableEq

namespace Weight

/-- The weights in order. -/
def rank : Weight → Nat
  | debug => 0
  | info => 1
  | warning => 2
  | error => 3
  | critical => 4

/-- The word for a weight. -/
def word : Weight → String
  | debug => "DEBUG"
  | info => "INFO"
  | warning => "WARNING"
  | error => "ERROR"
  | critical => "CRITICAL"

/-- All weights. -/
def all : List Weight := [debug, info, warning, error, critical]

/-- The weight with this word. -/
def ofWord? (s : String) : Option Weight :=
  all.find? fun w => w.word == s

theorem ofWord?_word (w : Weight) : ofWord? w.word = some w := by
  cases w <;> decide

end Weight

/-- What is noticed on the way. -/
inductive Notice where
  | duplicateKey (key : Value) (line : Nat)
  | parentType (key : String) (child parent : EntryType)
  | loaded (count : Nat)
  | selecting (source : String) (count : Nat)
  | matched (source : String) (count total : Nat)

/-- The weight of a notice. -/
def Notice.weight : Notice → Weight
  | duplicateKey .. => .debug
  | parentType .. => .debug
  | loaded _ => .info
  | selecting .. => .info
  | matched .. => .debug

/-- The text of a notice. -/
def Notice.message : Notice → String
  | duplicateKey key line => "Duplicate key " ++ key.literal ++ " at line " ++ Number.decimal line
  | parentType key child parent =>
    key ++ ": parent of " ++ child.name ++ " defaults to " ++ parent.name
  | loaded count => "Loaded " ++ Number.decimal count ++ " entries"
  | selecting source count =>
    "Selecting " ++ Text.quoted source ++ " from " ++ Number.decimal count ++ " entries"
  | matched source count total =>
    "Selector " ++ Text.quoted source ++ " matched " ++ Number.decimal count ++ " of " ++
      Number.decimal total ++ " entries"

/-- A notice as a line. -/
def Notice.line (n : Notice) : String :=
  "[" ++ n.weight.word ++ "] " ++ n.message

/-- A result, or the reason why there is none, with the notices on the way. -/
structure Noted (ε α : Type) where
  notices : List Notice
  result : Except ε α

namespace Noted

variable {ε α β : Type}

/-- A result without notices. -/
def ok (a : α) : Noted ε α := ⟨[], .ok a⟩

/-- A failure without notices. -/
def fail (e : ε) : Noted ε α := ⟨[], .error e⟩

/-- A notice. -/
def note (n : Notice) : Noted ε Unit := ⟨[n], .ok ()⟩

/-- A result that may be missing, without notices. -/
def ofExcept (r : Except ε α) : Noted ε α := ⟨[], r⟩

/-- One computation after another. -/
def bind (x : Noted ε α) (f : α → Noted ε β) : Noted ε β :=
  match x.result with
  | .error e => ⟨x.notices, .error e⟩
  | .ok a => ⟨x.notices ++ (f a).notices, (f a).result⟩

instance : Monad (Noted ε) where
  pure := ok
  bind := bind

@[simp] theorem result_pure (a : α) : (pure a : Noted ε α).result = .ok a := rfl

@[simp] theorem result_fail (e : ε) : (fail e : Noted ε α).result = .error e := rfl

@[simp] theorem result_note (n : Notice) : (note n : Noted ε Unit).result = .ok () := rfl

@[simp] theorem result_ofExcept (r : Except ε α) : (ofExcept r).result = r := rfl

theorem result_bind (x : Noted ε α) (f : α → Noted ε β) :
    (x >>= f).result = x.result.bind fun a => (f a).result := by
  change (bind x f).result = _
  unfold bind
  cases x.result <;> rfl

theorem notices_bind (x : Noted ε α) (f : α → Noted ε β) :
    (x >>= f).notices =
      x.notices ++ match x.result with
        | .ok a => (f a).notices
        | .error _ => [] := by
  change (bind x f).notices = _
  unfold bind
  cases x.result <;> simp

end Noted

end Bibliograph.Loading
