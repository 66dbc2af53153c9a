set_option autoImplicit false

/-! # How a list is navigated

The choices behind the arrow keys: which way the list runs, whether its rows fill a line each, and
how far a page goes. -/

namespace Listbox

/-- The axis along which a list scrolls. -/
inductive Orientation where
  | vertical
  | horizontal
  deriving DecidableEq

/-- How rows are arranged. -/
inductive Arrangement where
  /-- One after the other. -/
  | stack
  /-- In lines of several. -/
  | grid
  deriving DecidableEq

/-- The direction of writing. -/
inductive Direction where
  | ltr
  | rtl
  deriving DecidableEq

structure NavigationConfig where
  orientation : Orientation := .vertical
  arrangement : Arrangement := .stack
  direction : Direction := .ltr
  /-- How many rows a page has where nothing is measured. -/
  pageSize : Nat := 10
  /-- Whether stepping over one end comes back at the other. -/
  wraps : Bool := false
  deriving DecidableEq

/-- Where a step goes. -/
inductive Move where
  | below
  | above
  | leftOf
  | rightOf
  | pageBelow
  | pageAbove
  | first
  | last
  deriving DecidableEq

end Listbox
