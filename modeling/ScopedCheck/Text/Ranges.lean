/-!
# Sets of code points

A set is listed by the code points where membership changes, in ascending
order: the first one enters the set, the second one leaves it, and so on.
-/

namespace ScopedCheck

namespace Text

/-- Membership in the set that changes at the listed code points. -/
def inToggles : List Nat → Nat → Bool
  | [], _ => false
  | edge :: rest, n => if n < edge then false else !inToggles rest n

end Text

end ScopedCheck
