/-!
# Inversion lists

A set of code points kept as the ascending list of the places where membership changes:

* `InversionList` — `[a, b, c, d]` is the set `a … b-1` together with `c … d-1`;
* `InversionList.contains` — walks the list and flips its answer at every bound it has passed.

The empty list is the empty set, and a list of odd length is a set without an upper end.
-/

namespace SiteHost.Text

/-- The bounds at which membership changes, in ascending order. -/
abbrev InversionList := List Nat

/-- A number belongs to the set when it has passed an odd number of bounds. -/
def InversionList.contains : InversionList → Nat → Bool
  | [], _ => false
  | bound :: rest, n => if n < bound then false else !(InversionList.contains rest n)

theorem InversionList.contains_of_lt {bound n : Nat} {rest : InversionList} (h : n < bound) :
    InversionList.contains (bound :: rest) n = false := by
  simp [InversionList.contains, h]

theorem InversionList.contains_of_le {bound n : Nat} {rest : InversionList} (h : bound ≤ n) :
    InversionList.contains (bound :: rest) n = !(InversionList.contains rest n) := by
  simp [InversionList.contains, Nat.not_lt.2 h]

end SiteHost.Text
