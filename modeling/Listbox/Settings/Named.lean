import Listbox.Collection.Node
import Listbox.ListControl.Keyboard
import Listbox.Load.Loader

set_option autoImplicit false

/-! # Written names

The words under which settings and answers name the alternatives of a choice. A type with such words
is `Named`: it lists its alternatives, and different ones have different words, so a word can be read
back. -/

namespace Listbox

/-- A choice whose alternatives have words, each its own. -/
class Named (α : Type) where
  /-- Every alternative. -/
  all : List α
  name : α → String
  mem_all : ∀ a, a ∈ all := by intro a; cases a <;> simp
  name_injective : ∀ a b, name a = name b → a = b := by intro a b; cases a <;> cases b <;> simp

namespace Named

variable {α : Type} [Named α]

/-- The alternative that a word names. -/
def ofName? (word : String) : Option α := all.find? fun a => name a == word

end Named

instance : Named NodeKind where
  all := [.item, .group]
  name
    | .item => "Item"
    | .group => "Section"

instance : Named LoadKind where
  all := [.initial, .more, .filter]
  name
    | .initial => "Initial"
    | .more => "More"
    | .filter => "Filter"

instance : Named LoadState where
  all := [.idle, .loading, .loadingMore, .filtering, .failed]
  name
    | .idle => "Idle"
    | .loading => "Loading"
    | .loadingMore => "LoadingMore"
    | .filtering => "Filtering"
    | .failed => "Error"

instance : Named SelectionMode where
  all := [.none, .single, .multiple]
  name
    | .none => "None"
    | .single => "Single"
    | .multiple => "Multiple"

instance : Named SelectionBehavior where
  all := [.toggle, .replace]
  name
    | .toggle => "Toggle"
    | .replace => "Replace"

instance : Named DisabledBehavior where
  all := [.all, .selection]
  name
    | .all => "All"
    | .selection => "Selection"

instance : Named LinkBehavior where
  all := [.action, .selection, .override, .none]
  name
    | .action => "Action"
    | .selection => "Selection"
    | .override => "Override"
    | .none => "None"

instance : Named FocusStrategy where
  all := [.first, .last]
  name
    | .first => "First"
    | .last => "Last"

instance : Named Orientation where
  all := [.vertical, .horizontal]
  name
    | .vertical => "Vertical"
    | .horizontal => "Horizontal"

instance : Named Arrangement where
  all := [.stack, .grid]
  name
    | .stack => "Stack"
    | .grid => "Grid"

instance : Named Direction where
  all := [.ltr, .rtl]
  name
    | .ltr => "Ltr"
    | .rtl => "Rtl"

instance : Named Move where
  all := [.below, .above, .leftOf, .rightOf, .pageBelow, .pageAbove, .first, .last]
  name
    | .below => "Below"
    | .above => "Above"
    | .leftOf => "LeftOf"
    | .rightOf => "RightOf"
    | .pageBelow => "PageBelow"
    | .pageAbove => "PageAbove"
    | .first => "First"
    | .last => "Last"

instance : Named Platform where
  all := [.apple, .other]
  name
    | .apple => "Apple"
    | .other => "Other"

instance : Named PointerType where
  all := [.mouse, .pen, .touch, .keyboard, .virtual]
  name
    | .mouse => "Mouse"
    | .pen => "Pen"
    | .touch => "Touch"
    | .keyboard => "Keyboard"
    | .virtual => "Virtual"

instance : Named ToggleActionPolicy where
  all := [.actionWhenEmpty, .selectionFirst]
  name
    | .actionWhenEmpty => "ActionWhenEmpty"
    | .selectionFirst => "SelectionFirst"

instance : Named EscapeKeyBehavior where
  all := [.clearSelection, .none]
  name
    | .clearSelection => "ClearSelection"
    | .none => "None"

instance : Named FocusEntry where
  all := [.forward, .backward]
  name
    | .forward => "Forward"
    | .backward => "Backward"

/-- The keystrokes with a word of their own; a single character stands for itself. -/
def KeyStroke.ofName? (word : String) : Option KeyStroke :=
  match word with
  | "ArrowDown" => some .arrowDown
  | "ArrowUp" => some .arrowUp
  | "ArrowLeft" => some .arrowLeft
  | "ArrowRight" => some .arrowRight
  | "Home" => some .home
  | "End" => some .endKey
  | "PageDown" => some .pageDown
  | "PageUp" => some .pageUp
  | "Enter" => some .enter
  | "Space" => some .space
  | "Escape" => some .escape
  | "Tab" => some .tab
  | word =>
    match word.toList with
    | [c] => some (.character c)
    | _ => none

end Listbox
