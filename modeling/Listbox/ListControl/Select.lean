import Listbox.ListControl.Basic

set_option autoImplicit false

/-! # Selecting a row

The same request to select a row comes to different gestures, according to the mode of the list, the
modifiers and what the request was made with. Links have a say of their own. -/

universe u v

namespace Listbox

/-- A list control after an input, the selections announced meanwhile, and the result. -/
structure Reaction (K : Type u) (T : Type v) [DecidableEq K] [Hashable K] (α : Type u) where
  control : ListControl K T
  reports : List (Selection K)
  result : α

namespace ListControl

variable {K : Type u} {T : Type v} {α : Type u} [DecidableEq K] [Hashable K]

/-- Ends with `l` and announces nothing. -/
def answer (l : ListControl K T) (result : α) : Reaction K T α := ⟨l, [], result⟩

/-- Ends with the outcome of an update of the model. -/
def update (l : ListControl K T) (u : Update K T) (result : α) : Reaction K T α :=
  ⟨{ l with model := u.model }, u.reports, result⟩

/-- The gesture that a request to select a row comes to, links apart. -/
def selectRow (l : ListControl K T) (k : K) (pointer : PointerType) (mods : Modifiers) :
    Update K T :=
  match l.model.mode with
  | .none => l.model.still
  | .single =>
    if l.model.isSelected k && !l.model.config.disallowEmpty then l.model.toggle k
    else l.model.replace k
  | .multiple =>
    if mods.shift then l.model.extend k
    else if l.model.behavior = .toggle ∨ mods.isCtrlLike l.config.platform ∨ pointer = .touch ∨
        pointer = .virtual then
      l.model.toggle k
    else l.model.replace k

/-- Selects a row and says whether a link is to be followed with it. A keyboard command toggles,
whatever the row is. -/
def selectWith (l : ListControl K T) (k : K) (pointer : PointerType) (mods : Modifiers) :
    Update K T × Option (Activation K) :=
  if pointer = .keyboard ∧ mods.isCtrlLike l.config.platform then (l.model.toggle k, none)
  else if l.model.mode = .none then (l.model.still, none)
  else if l.model.isLink k then
    match l.model.config.linkBehavior with
    | .action => (l.selectRow k pointer mods, none)
    | .selection => (l.selectRow k pointer mods, some (.followLink k))
    | .override | .none => (l.model.still, none)
  else (l.selectRow k pointer mods, none)

/-- Selects a row in answer to an input. -/
def select (l : ListControl K T) (k : K) (pointer : PointerType) (mods : Modifiers) :
    Reaction K T (Response K) :=
  let (u, follow) := l.selectWith k pointer mods
  l.update u (.activate follow)

/-- The action of a row. -/
def activation (l : ListControl K T) (k : K) : Activation K :=
  if l.followsLink k then .followLink k else .action k

/-- Runs the action of a row. -/
def act (l : ListControl K T) (k : K) : Reaction K T (Response K) :=
  l.answer (.activate (some (l.activation k)))

end ListControl

end Listbox
