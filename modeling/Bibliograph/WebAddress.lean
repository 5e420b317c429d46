import Bibliograph.Date

/-!
# Web addresses

Main definitions:

* `WebAddress`: an address with the date of a visit, if known.
-/

set_option autoImplicit false

namespace Bibliograph

/-- A web address and the date at which it was visited. -/
structure WebAddress where
  address : String
  visited : Option Date := none
  deriving Repr, DecidableEq

end Bibliograph
