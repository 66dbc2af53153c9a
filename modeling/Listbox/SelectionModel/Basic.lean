import Listbox.Collection.Edition
import Listbox.Selection
import Listbox.SelectionModel.Config

set_option autoImplicit false

/-! # The selection model

A `SelectionModel` holds what is selected and what is focused in one collection. The stored
selection may be "all", or may name keys that the collection no longer has; `resolve` says which
keys a selection comes to, and every question about the selection is a question about them.

In a controlled model the owner holds the selection: gestures propose one and store nothing. -/

universe u v

namespace Listbox

/-- Where the focus of a list is. -/
structure Focus (K : Type u) where
  /-- The row that has the focus when the list has it. -/
  key : Option K := none
  /-- Which of its children the focus goes on to. -/
  child : Option FocusStrategy := none
  /-- Whether the list has the focus. -/
  inside : Bool := false
  /-- Whether the focus is to be drawn. -/
  visible : Bool := false
  deriving DecidableEq

/-- What is selected and focused in a collection. -/
structure SelectionModel (K : Type u) (T : Type v) [DecidableEq K] [Hashable K] where
  edition : Edition K T
  config : SelectionConfig K
  /-- The keys that are disabled now, besides those of disabled nodes. -/
  disabledKeys : Std.HashSet K
  /-- What a plain gesture does now; a list that replaces may toggle for a while. -/
  behavior : SelectionBehavior
  selection : Selection K
  /-- Whether an owner holds the selection. -/
  controlled : Bool
  focus : Focus K
  /-- How often the stored selection has changed. -/
  revision : UInt64
  /-- Whether anyone is told of changes. -/
  observed : Bool

namespace SelectionModel

variable {K : Type u} {T : Type v} [DecidableEq K] [Hashable K]

/-- Nothing selected or focused, nobody told. -/
def new (edition : Edition K T) (config : SelectionConfig K) : SelectionModel K T :=
  { edition
    config
    disabledKeys := Std.HashSet.ofList config.disabledKeys
    behavior := config.behavior
    selection := .empty
    controlled := false
    focus := {}
    revision := 0
    observed := false }

def collection (m : SelectionModel K T) : Collection K T := m.edition.collection

def mode (m : SelectionModel K T) : SelectionMode := m.config.mode

/-! ## Single rows -/

/-- Whether a row can be selected: it is there, an item, not disabled, and not a link that is only
for following. -/
def canSelect (m : SelectionModel K T) (k : K) : Bool :=
  m.mode != .none && !m.disabledKeys.contains k &&
    match m.collection.get? k with
    | none => false
    | some n => n.isItem && !n.disabled && !(n.isLink && m.config.linkBehavior == .override)

/-- Whether a row is barred from focus and actions as well as from selection. -/
def isDisabled (m : SelectionModel K T) (k : K) : Bool :=
  m.config.disabledBehavior == .all &&
    (m.disabledKeys.contains k || (m.collection.get? k).any (·.disabled))

def isLink (m : SelectionModel K T) (k : K) : Bool := (m.collection.get? k).any (·.isLink)

def isSelected (m : SelectionModel K T) (k : K) : Bool :=
  m.mode != .none &&
    match m.selection with
    | .all => m.canSelect k
    | .keys s => s.contains k && m.collection.contains k

/-! ## What a selection comes to -/

/-- The nodes that can be selected, in reading order. -/
def selectableNodes (m : SelectionModel K T) : List (Node K T) :=
  m.collection.toList.filter fun n => m.canSelect n.key

/-- The keys that "all" stands for. -/
def selectableKeys (m : SelectionModel K T) : List K := m.selectableNodes.map (·.key)

/-- The keys of a selection that are in the collection. -/
def resolve (m : SelectionModel K T) : Selection K → KeySet K
  | .all => .ofListHashed m.selectableKeys
  | .keys s => s.filter m.collection.contains

def selectedKeys (m : SelectionModel K T) : KeySet K := m.resolve m.selection

/-- The keys of the stored selection that can be selected now. -/
def liveKeys (m : SelectionModel K T) : KeySet K :=
  match m.selection with
  | .all => .ofListHashed m.selectableKeys
  | .keys s => s.filter m.canSelect

/-- The part of a selection that the model may store: "all" only if many rows may be selected, and
otherwise keys that can be selected, at most one of them if only one may be. -/
def admissible (m : SelectionModel K T) : Selection K → Selection K
  | .all => if m.mode = .multiple then .all else .empty
  | .keys s =>
    let live := s.filter m.canSelect
    match m.mode, live.items with
    | .single, k :: _ :: _ => .keys (.single k)
    | _, _ => .keys live

/-- Whether nothing in the collection is selected. -/
def isEmpty (m : SelectionModel K T) : Bool :=
  match m.selection with
  | .all => false
  | .keys s => !s.items.any m.collection.contains

/-- Whether something is selected, and nothing that could be is not. -/
def isSelectAll (m : SelectionModel K T) : Bool :=
  !m.isEmpty &&
    match m.selection with
    | .all => true
    | .keys s =>
      let selected := Std.HashSet.ofList s.items
      m.selectableNodes.all fun n => selected.contains n.key

/-- The selected items in reading order. -/
def selectedNodes (m : SelectionModel K T) : List (Node K T) :=
  if m.mode = .none then []
  else
    match m.selection with
    | .all => m.collection.toList.filter fun n => n.isItem && m.canSelect n.key
    | .keys s =>
      let selected := Std.HashSet.ofList s.items
      m.collection.toList.filter fun n => n.isItem && selected.contains n.key

def firstSelected? (m : SelectionModel K T) : Option K := m.selectedNodes.head?.map (·.key)

def lastSelected? (m : SelectionModel K T) : Option K := m.selectedNodes.getLast?.map (·.key)

/-- Whether a selection comes to the same keys as the stored one. -/
def isSelectionEqual (m : SelectionModel K T) (s : Selection K) : Bool :=
  m.selectedKeys.sameKeysHashed (m.resolve s)

/-! ## Neighbourhoods -/

/-- The items from one key to another in reading order, whichever comes first; nothing if either is
missing. -/
def range (m : SelectionModel K T) (a b : K) : List K :=
  match m.collection.get? a, m.collection.get? b with
  | some x, some y =>
    let first := min x.index y.index
    let last := max x.index y.index
    ((m.collection.toList.take (last + 1)).drop first).filter (·.isItem) |>.map (·.key)
  | _, _ => []

/-- Whether a node can take the focus. -/
def isFocusable (m : SelectionModel K T) (n : Node K T) : Bool := n.isItem && !m.isDisabled n.key

/-- The focusable node nearest to a position: the first from there on, or else the last before. A
position past the end counts as the last one. -/
def nearestFocusable? (m : SelectionModel K T) (index : Nat) : Option K :=
  let start := min index (m.collection.size - 1)
  ((m.collection.findFrom? m.isFocusable start).or
    (m.collection.findBefore? m.isFocusable start)).map (·.key)

/-! ## Before the first operation -/

/-- The model that starts with what it may store of `s`. -/
def withSelection (m : SelectionModel K T) (s : Selection K) : SelectionModel K T :=
  { m with selection := m.admissible s }

/-- The model whose owner holds the selection and starts with `s`. -/
def controlledBy (m : SelectionModel K T) (s : Selection K) : SelectionModel K T :=
  { m with controlled := true, selection := m.admissible s }

end SelectionModel

end Listbox
