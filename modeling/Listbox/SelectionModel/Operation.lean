import Listbox.SelectionModel.Update

set_option autoImplicit false

/-! # Operations on a selection model

The operations as data: a `Gesture` is what a user can do to the selection, and an `Operation` is
anything that can happen to a model. A run of operations is a list of them. -/

universe u v

namespace Listbox

/-- What a user can do to the selection. -/
inductive Gesture (K : Type u) where
  | toggle (k : K)
  | replace (k : K)
  | extend (k : K)
  | select (ks : List K)
  | selectAll
  | toggleSelectAll
  | clear
  deriving DecidableEq

/-- What can happen to a model. -/
inductive Operation (K : Type u) (T : Type v) [DecidableEq K] [Hashable K] where
  | gesture (g : Gesture K)
  | setControlled (s : Selection K)
  | setDisabled (ks : List K)
  | setBehavior (b : SelectionBehavior)
  | setFocusedKey (k : Option K) (child : Option FocusStrategy)
  | setFocused (on : Bool)
  | setFocusVisible (on : Bool)
  | setObserved (on : Bool)
  | setEdition (e : Edition K T)

namespace SelectionModel

variable {K : Type u} {T : Type v} [DecidableEq K] [Hashable K]

/-- Carries a gesture out. -/
def gesture (m : SelectionModel K T) : Gesture K → Update K T
  | .toggle k => m.toggle k
  | .replace k => m.replace k
  | .extend k => m.extend k
  | .select ks => m.select ks
  | .selectAll => m.selectAll
  | .toggleSelectAll => m.toggleSelectAll
  | .clear => m.clear

/-- Carries an operation out. -/
def apply (m : SelectionModel K T) : Operation K T → Update K T
  | .gesture g => m.gesture g
  | .setControlled s => m.setControlled s
  | .setDisabled ks => m.setDisabled ks
  | .setBehavior b => (m.setBehavior b).still
  | .setFocusedKey k child => (m.setFocusedKey k child).still
  | .setFocused on => (m.setFocused on).still
  | .setFocusVisible on => (m.setFocusVisible on).still
  | .setObserved on => (m.setObserved on).still
  | .setEdition e => m.setEdition e

/-- Carries operations out in order and collects what they announce. -/
def run (m : SelectionModel K T) : List (Operation K T) → Update K T
  | [] => m.still
  | op :: ops =>
    let first := m.apply op
    let rest := first.model.run ops
    ⟨rest.model, first.reports ++ rest.reports⟩

end SelectionModel

end Listbox
