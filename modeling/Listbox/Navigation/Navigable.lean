import Listbox.Navigation.Config

set_option autoImplicit false

/-! # What can be navigated

A `Navigable` answers where each step leads and which row a typed text finds. Only four answers are
required: one step down, one step up, and the two ends. What else a list cannot do, it answers with
nothing. -/

universe u

namespace Listbox

/-- The answers to every step and every search. -/
structure Navigable (K : Type u) where
  below? : K → Option K
  above? : K → Option K
  first? : Option K
  last? : Option K
  leftOf? : K → Option K := fun _ => none
  rightOf? : K → Option K := fun _ => none
  pageBelow? : K → Option K := fun _ => none
  pageAbove? : K → Option K := fun _ => none
  /-- The key that a text finds, looking from a key on. -/
  search? : String → Option K → Option K := fun _ _ => none
  /-- Whether a text finds a key. -/
  finds : String → K → Bool := fun _ _ => false

namespace Navigable

variable {K : Type u}

/-- Where a move from `k` leads. -/
def go? (n : Navigable K) (k : K) : Move → Option K
  | .below => n.below? k
  | .above => n.above? k
  | .leftOf => n.leftOf? k
  | .rightOf => n.rightOf? k
  | .pageBelow => n.pageBelow? k
  | .pageAbove => n.pageAbove? k
  | .first => n.first?
  | .last => n.last?

/-- The numbers from zero up to `n`, one step at a time. -/
def counting (n : Int) : Navigable Int where
  below? k := if k + 1 < n then some (k + 1) else none
  above? k := if 0 < k then some (k - 1) else none
  first? := if 0 < n then some 0 else none
  last? := if 0 < n then some (n - 1) else none

end Navigable

end Listbox
