import Listbox.Navigation.Geometry
import Listbox.Navigation.Navigable
import Listbox.SelectionModel.Basic
import Listbox.Text.Collator

set_option autoImplicit false

/-! # Navigating a collection

A `Navigator` moves over the focusable nodes of a collection: the items that are not disabled. In a
stack every step goes to the neighbour in reading order. In a grid the steps across the lines of the
grid look for a node in the same column or row of the layout, and pages are as long as what is in
view. -/

universe u v

namespace Listbox

/-- A collection with all that decides how to move over it. -/
structure Navigator (K : Type u) (T : Type v) [DecidableEq K] [Hashable K] where
  collection : Collection K T
  disabledKeys : Std.HashSet K
  disabledBehavior : DisabledBehavior
  config : NavigationConfig
  layout : Option (Layout K)
  collator : Collator

namespace Navigator

variable {K : Type u} {T : Type v} [DecidableEq K] [Hashable K]

/-- No keys disabled besides those of disabled nodes, nothing measured, case ignored. -/
def new (collection : Collection K T) (config : NavigationConfig) : Navigator K T :=
  { collection
    disabledKeys := ∅
    disabledBehavior := .all
    config
    layout := none
    collator := .caseInsensitive }

/-- Moves over what a selection model lets be focused. -/
def ofModel (m : SelectionModel K T) (config : NavigationConfig) : Navigator K T :=
  { new m.collection config with
    disabledKeys := m.disabledKeys
    disabledBehavior := m.config.disabledBehavior }

/-! ## Focusable nodes -/

def isDisabled (v : Navigator K T) (n : Node K T) : Bool :=
  v.disabledBehavior == .all && (n.disabled || v.disabledKeys.contains n.key)

def isFocusable (v : Navigator K T) (n : Node K T) : Bool := n.isItem && !v.isDisabled n

/-- The first focusable key. -/
def first? (v : Navigator K T) : Option K := (v.collection.findFrom? v.isFocusable 0).map (·.key)

/-- The last focusable key. -/
def last? (v : Navigator K T) : Option K :=
  (v.collection.findBefore? v.isFocusable v.collection.size).map (·.key)

/-- The focusable key nearest to `k` that satisfies `p`: the first after it in reading order, or if
not `forward` the last before it. -/
def seek? (v : Navigator K T) (p : Node K T → Bool) (forward : Bool) (k : K) : Option K :=
  (v.collection.position? k).bind fun i =>
    let stops := fun n => v.isFocusable n && p n
    (if forward then v.collection.findFrom? stops (i + 1)
      else v.collection.findBefore? stops i).map (·.key)

/-- The focusable key next to `k`. -/
def step? (v : Navigator K T) (forward : Bool) (k : K) : Option K := v.seek? (fun _ => true) forward k

/-- The focusable key nearest to `k` whose rectangle is related to that of `k`. What is not measured
stops the search, for nothing is known of what lies past it, and from a key that is not measured
there is no way. Without a layout the nearest key will do. -/
def stepInLayout? (v : Navigator K T) (related : Rect → Rect → Bool) (forward : Bool) (k : K) :
    Option K :=
  match v.layout with
  | none => v.step? forward k
  | some layout =>
    (layout.rect? k).bind fun source =>
      v.seek? (fun n => (layout.rect? n.key).all (related source)) forward k

/-! ## Single steps -/

/-- One step up or down, without coming back at the other end. -/
def vertical? (v : Navigator K T) (forward : Bool) (k : K) : Option K :=
  match v.config.arrangement, v.config.orientation with
  | .grid, .vertical => v.stepInLayout? Rect.sameColumnOtherRow forward k
  | _, _ => v.step? forward k

/-- One step to the side, without coming back at the other end. A vertical stack has no sides. -/
def horizontal? (v : Navigator K T) (forward : Bool) (k : K) : Option K :=
  match v.config.arrangement, v.config.orientation with
  | .stack, .vertical => none
  | .grid, .horizontal => v.stepInLayout? Rect.sameRowOtherColumn forward k
  | _, _ => v.step? forward k

/-- Whether there are steps to the side at all. -/
def hasSides (v : Navigator K T) : Bool :=
  !(v.config.arrangement == .stack && v.config.orientation == .vertical)

/-- The end at which a step over the other end comes back. -/
def wrap? (v : Navigator K T) (forward : Bool) : Option K :=
  if v.config.wraps then if forward then v.first? else v.last? else none

def upDown? (v : Navigator K T) (forward : Bool) (k : K) : Option K :=
  if v.collection.contains k then (v.vertical? forward k).or (v.wrap? forward) else none

def sideways? (v : Navigator K T) (forward : Bool) (k : K) : Option K :=
  if v.collection.contains k && v.hasSides then (v.horizontal? forward k).or (v.wrap? forward)
  else none

def below? (v : Navigator K T) (k : K) : Option K := v.upDown? true k

def above? (v : Navigator K T) (k : K) : Option K := v.upDown? false k

/-- A step to the left goes forward where writing goes to the left. -/
def leftOf? (v : Navigator K T) (k : K) : Option K := v.sideways? (v.config.direction == .rtl) k

def rightOf? (v : Navigator K T) (k : K) : Option K := v.sideways? (v.config.direction == .ltr) k

/-! ## Pages -/

/-- How many rows of extent `item` fit into `visible`, at least one. -/
def rowsPerPage (visible item : Float) : Nat :=
  if item > 0 ∧ visible ≥ item then max (visible / item).toUInt64.toNat 1 else 1

/-- How far a page from `k` goes: `none` if all the content is in view, so that it goes to the end,
and otherwise the number of steps. -/
def pageSteps? (v : Navigator K T) (k : K) : Option Nat :=
  match v.layout.bind fun layout => (layout.rect? k).map fun rect => (layout, rect) with
  | none => some (max v.config.pageSize 1)
  | some (layout, rect) =>
    let (item, visible, content) :=
      match v.config.orientation with
      | .vertical => (rect.height, layout.visible.height, layout.content.height)
      | .horizontal => (rect.width, layout.visible.width, layout.content.width)
    if content ≤ visible then none else some (rowsPerPage visible item)

/-- As many steps as possible, at most `n`. -/
def advance (v : Navigator K T) (forward : Bool) : Nat → K → K
  | 0, k => k
  | n + 1, k =>
    match v.vertical? forward k with
    | some next => v.advance forward n next
    | none => k

/-- A page from a key of the collection. It never comes back at the other end. -/
def page? (v : Navigator K T) (forward : Bool) (k : K) : Option K :=
  if v.collection.contains k then
    match v.pageSteps? k with
    | none => if forward then v.last? else v.first?
    | some n => some (v.advance forward n k)
  else none

def pageBelow? (v : Navigator K T) (k : K) : Option K := v.page? true k

def pageAbove? (v : Navigator K T) (k : K) : Option K := v.page? false k

/-! ## Searching -/

/-- Whether a node can take the focus and its text starts with `text`. -/
def isHit (v : Navigator K T) (text : String) (n : Node K T) : Bool :=
  v.isFocusable n && v.collator.isPrefixOf text n.text

/-- Whether `text` finds `k`; the empty text finds nothing. -/
def finds (v : Navigator K T) (text : String) (k : K) : Bool :=
  !text.isEmpty && (v.collection.get? k).any (v.isHit text)

/-- The first key that `text` finds after `start`, going round past the end; `start` itself comes
last. Without a known `start` the search begins at the top. -/
def search? (v : Navigator K T) (text : String) (start : Option K) : Option K :=
  if text.isEmpty then none
  else
    let i := (start.bind v.collection.get?).elim 0 (·.index + 1)
    ((v.collection.round i).find? (v.isHit text)).map (·.key)

/-- The navigator as a table of answers. -/
def navigable (v : Navigator K T) : Navigable K where
  below? := v.below?
  above? := v.above?
  first? := v.first?
  last? := v.last?
  leftOf? := v.leftOf?
  rightOf? := v.rightOf?
  pageBelow? := v.pageBelow?
  pageAbove? := v.pageAbove?
  search? := v.search?
  finds := v.finds

/-- Where a move from `k` leads. -/
def go? (v : Navigator K T) (k : K) (move : Move) : Option K := v.navigable.go? k move

end Navigator

end Listbox
