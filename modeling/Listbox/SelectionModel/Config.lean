set_option autoImplicit false

/-! # How a list may be selected

The choices a list makes once: how many rows may be selected, what a plain gesture does, what it
means to be disabled, and what selecting a link does. -/

universe u

namespace Listbox

/-- How many rows may be selected at a time. -/
inductive SelectionMode where
  | none
  | single
  | multiple
  deriving DecidableEq

/-- What a gesture without modifiers does to a row. -/
inductive SelectionBehavior where
  /-- It flips the row and leaves the others alone. -/
  | toggle
  /-- It selects the row and nothing else. -/
  | replace
  deriving DecidableEq

/-- What a disabled row is barred from. -/
inductive DisabledBehavior where
  /-- It cannot be selected, focused or acted on. -/
  | all
  /-- It cannot be selected. -/
  | selection
  deriving DecidableEq

/-- What becomes of a link when a gesture would select it. -/
inductive LinkBehavior where
  /-- Its action is to follow the link; it can be selected like any row. -/
  | action
  /-- Selecting it also follows the link. -/
  | selection
  /-- It cannot be selected, only followed. -/
  | override
  /-- Gestures neither select nor follow it. -/
  | none
  deriving DecidableEq

/-- Which child of a newly focused row the focus goes on to. -/
inductive FocusStrategy where
  | first
  | last
  deriving DecidableEq

/-- The choices of one list. -/
structure SelectionConfig (K : Type u) where
  mode : SelectionMode := .none
  behavior : SelectionBehavior := .toggle
  /-- Whether gestures may not take the last key away. -/
  disallowEmpty : Bool := false
  /-- The keys disabled from the start, besides those of disabled nodes. -/
  disabledKeys : List K := []
  disabledBehavior : DisabledBehavior := .all
  linkBehavior : LinkBehavior := .action
  /-- Whether a gesture that changes nothing is reported all the same. -/
  allowRepeats : Bool := false
  deriving DecidableEq

end Listbox
