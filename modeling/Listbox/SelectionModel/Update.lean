import Listbox.SelectionModel.Basic

set_option autoImplicit false

/-! # Changing the selection

Every gesture works out the selection it wants and proposes it. A proposal that comes to the same
keys as before is not reported, unless the list asks for repeats; any other is stored, which an
owner of the selection prevents, and reported. The reports of an operation are part of its result:
an `Update` is the model afterwards together with the selections that were announced. -/

universe u v

namespace Listbox

/-- A model after an operation, and the selections announced during it, in order. -/
structure Update (K : Type u) (T : Type v) [DecidableEq K] [Hashable K] where
  model : SelectionModel K T
  reports : List (Selection K)

namespace SelectionModel

variable {K : Type u} {T : Type v} [DecidableEq K] [Hashable K]

/-- The operation that ends with `m` and announces nothing. -/
def still (m : SelectionModel K T) : Update K T := ⟨m, []⟩

/-! ## Storing and reporting -/

/-- Stores a selection. The revision counts the stores that change the members; and a list that
toggles for a while goes back to replacing when nothing is left. -/
def store (m : SelectionModel K T) (next : Selection K) : SelectionModel K T :=
  { m with
    selection := next
    revision := if m.selection.sameHashed next then m.revision else m.revision + 1
    behavior :=
      if m.config.behavior = .replace ∧ m.behavior = .toggle ∧ next.isEmpty then .replace
      else m.behavior }

/-- Stores a selection, unless an owner holds it, and announces it. -/
def adopt (m : SelectionModel K T) (next : Selection K) : Update K T :=
  { model := if m.controlled then m else m.store next
    reports := if m.observed then [next] else [] }

/-- Whether a selection comes to other keys than the stored one, or is "all" where that is not. -/
def differs (m : SelectionModel K T) (next : Selection K) : Bool :=
  !m.isSelectionEqual next || m.selection.isAll != next.isAll

/-- Adopts a selection that differs; one that does not may still move the roles of its keys. -/
def propose (m : SelectionModel K T) (next : Selection K) : Update K T :=
  if m.differs next || m.config.allowRepeats then m.adopt next
  else if m.controlled then m.still
  else { m with selection := next }.still

/-- Drops the stored keys that can no longer be selected. -/
def prune (m : SelectionModel K T) : Update K T :=
  match m.selection with
  | .all => m.still
  | .keys s =>
    let live := s.filter m.canSelect
    if live.size = s.size then m.still else m.adopt (.keys live)

/-! ## Gestures -/

/-- Selects one row and nothing else. -/
def replace (m : SelectionModel K T) (k : K) : Update K T :=
  if m.canSelect k then m.propose (.keys (.single k)) else m.still

/-- Flips one row, which becomes both ends of the range. -/
def toggle (m : SelectionModel K T) (k : K) : Update K T :=
  if !m.canSelect k then m.still
  else if m.mode = .single ∧ !m.isSelected k then m.replace k
  else
    let live := m.liveKeys
    if live.contains k then
      if m.config.disallowEmpty ∧ live.size ≤ 1 then m.still
      else m.propose (.keys ((live.erase k).withRoles (some k) (some k)))
    else m.propose (.keys ((live.insert k).withRoles (some k) (some k)))

/-- The fixed end of a range that goes to `k`: the anchor, or else the focused key, or else `k`. -/
def rangeStart (m : SelectionModel K T) (live : KeySet K) (k : K) : K :=
  ((live.anchor.or m.focus.key).filter m.collection.contains).getD k

/-- The live keys after the moving end of the range has moved to `k`: the items of the old range have
given way to those of the new one. -/
def stretched (m : SelectionModel K T) (k : K) : KeySet K :=
  let live := m.liveKeys
  let anchor := m.rangeStart live k
  let kept :=
    match live.current with
    | some last => live.eraseMany (m.range anchor last)
    | none => live
  let added := (m.range anchor k).filter m.canSelect
  (kept.insertMany added).withRoles (some anchor) (some k)

/-- Moves the moving end of the range to `k`. -/
def extend (m : SelectionModel K T) (k : K) : Update K T :=
  match m.mode with
  | .none => m.still
  | .single => m.replace k
  | .multiple =>
    if !m.collection.contains k then m.still
    else if m.selection.isAll then m.propose (.keys (.single k))
    else m.propose (.keys (m.stretched k))

/-- Selects what can be selected of some keys, and nothing else. -/
def select (m : SelectionModel K T) (ks : List K) : Update K T :=
  if m.mode = .none then m.still
  else m.propose (m.admissible (.keys (.ofListHashed ks)))

def selectAll (m : SelectionModel K T) : Update K T :=
  if m.mode = .multiple then m.propose .all else m.still

def clear (m : SelectionModel K T) : Update K T :=
  if m.isEmpty ∨ m.config.disallowEmpty then m.still else m.propose .empty

def toggleSelectAll (m : SelectionModel K T) : Update K T :=
  if m.isSelectAll then m.clear else m.selectAll

/-! ## Settings -/

/-- Takes over the selection that the owner holds now. -/
def setControlled (m : SelectionModel K T) (s : Selection K) : Update K T :=
  (m.store (m.admissible s)).still

/-- Disables these keys and no others. -/
def setDisabled (m : SelectionModel K T) (ks : List K) : Update K T :=
  { m with disabledKeys := Std.HashSet.ofList ks }.prune

def setBehavior (m : SelectionModel K T) (b : SelectionBehavior) : SelectionModel K T :=
  { m with behavior := b }

def setObserved (m : SelectionModel K T) (on : Bool) : SelectionModel K T :=
  { m with observed := on }

/-! ## Focus -/

def setFocused (m : SelectionModel K T) (on : Bool) : SelectionModel K T :=
  { m with focus := { m.focus with inside := on } }

def setFocusVisible (m : SelectionModel K T) (on : Bool) : SelectionModel K T :=
  { m with focus := { m.focus with visible := on } }

/-- Moves the focus to a key of the collection, or to none. A key from elsewhere changes nothing. -/
def setFocusedKey (m : SelectionModel K T) (k : Option K) (child : Option FocusStrategy) :
    SelectionModel K T :=
  if k.all m.collection.contains then { m with focus := { m.focus with key := k, child } } else m

/-- The focus in the edition `e`: a focused key that `e` lacks gives way to the focusable key
nearest to where it stood. -/
def refocus (m : SelectionModel K T) (e : Edition K T) : Focus K :=
  match m.focus.key with
  | none => m.focus
  | some k =>
    if e.collection.contains k then m.focus
    else
      { m.focus with
        key := (m.collection.get? k).bind fun n =>
          { m with edition := e }.nearestFocusable? n.index
        child := none }

/-- Moves on to another edition of the collection. The focus and the selected keys follow. -/
def setEdition (m : SelectionModel K T) (e : Edition K T) : Update K T :=
  if e.number = m.edition.number then m.still
  else { m with edition := e, focus := m.refocus e }.prune

end SelectionModel

end Listbox
