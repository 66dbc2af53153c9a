import Listbox.ListControl.Select

set_option autoImplicit false

/-! # The keyboard and the focus of a list control

Arrow and page keys move the focus, and the selection follows it in a list that replaces; with the
shift key the range grows instead. Typing searches, and the space bar and the enter key work on the
focused row. -/

universe u v

namespace Listbox

/-- The side from which the focus enters a list. -/
inductive FocusEntry where
  | forward
  | backward
  deriving DecidableEq

namespace ListControl

variable {K : Type u} {T : Type v} [DecidableEq K] [Hashable K]

/-! ## Entering and leaving -/

/-- The row that gets the focus when the list is entered: the nearest selected one, or else the
nearest one. -/
def entryTarget? (l : ListControl K T) : FocusEntry → Option K
  | .forward => l.model.firstSelected?.or (l.navigator none).first?
  | .backward => l.model.lastSelected?.or (l.navigator none).last?

/-- The focus enters the list. In a list that replaces, the row that gets it is selected. -/
def focusIn (l : ListControl K T) (entry : FocusEntry) : Update K T :=
  let entered := { l with model := l.model.setFocused true }
  match l.model.focus.key, entered.entryTarget? entry with
  | none, some k =>
    let focused := entered.model.setFocusedKey (some k) none
    if focused.behavior = .replace ∧ !focused.isSelected k then focused.replace k
    else focused.still
  | _, _ => entered.model.still

/-- The focus leaves the list. -/
def focusOut (l : ListControl K T) : ListControl K T :=
  { l with model := l.model.setFocused false, typeahead := l.typeahead.reset }

/-! ## Keys -/

/-- Where a move leads from the focused key, or without one from outside the list. -/
def moveTarget? (l : ListControl K T) (move : Move) (layout : Option (Layout K)) : Option K :=
  let v := l.navigator layout
  match l.model.focus.key, move with
  | some k, _ => v.go? k move
  | none, .above | none, .pageAbove | none, .last => v.last?
  | none, _ => v.first?

/-- Moves the focus, and the selection with it. -/
def navigate (l : ListControl K T) (move : Move) (mods : Modifiers) (layout : Option (Layout K))
    (shiftExtends : Bool) : Reaction K T (Response K) :=
  match l.moveTarget? move layout with
  | none => l.answer .ignored
  | some k =>
    let moved :=
      { l with typeahead := l.typeahead.reset, model := l.model.setFocusedKey (some k) none }
    if shiftExtends ∧ mods.shift ∧ moved.model.mode = .multiple then
      moved.update (moved.model.extend k) .done
    else if moved.model.behavior = .replace ∧ !mods.isCtrlLike l.config.platform then
      moved.update (moved.model.replace k) .done
    else moved.answer .done

/-- The escape key: nothing stays selected. -/
def escape (l : ListControl K T) : Reaction K T (Response K) :=
  if l.config.escapeKeyBehavior = .none ∨ l.model.config.disallowEmpty ∨ l.model.isEmpty then
    l.answer .ignored
  else l.update l.model.clear .done

/-- The enter key or the space bar on the focused row. -/
def activateFocused (l : ListControl K T) (withEnter : Bool) (mods : Modifiers) :
    Reaction K T (Response K) :=
  match l.model.focus.key with
  | none => l.answer .ignored
  | some k =>
    if l.model.isDisabled k then l.answer .ignored
    else if withEnter && l.hasAction k then l.act k
    else if l.allowsSelection k || mods.isCtrlLike l.config.platform then
      l.select k .keyboard mods
    else l.answer .ignored

/-- A character that is not for searching: the space bar works on the focused row. -/
def typeApart (l : ListControl K T) (c : Char) (mods : Modifiers) : Reaction K T (Response K) :=
  if c = ' ' then l.activateFocused false mods else l.answer .ignored

/-- A typed character. -/
def type (l : ListControl K T) (c : Char) (mods : Modifiers) (now : Nat) :
    Reaction K T (Response K) :=
  if l.config.disallowTypeahead || mods.isShortcut then l.typeApart c mods
  else
    let (outcome, typeahead) :=
      l.typeahead.input (l.navigator none).navigable l.model.focus.key c now
    let typed := { l with typeahead }
    match outcome with
    | .focus k =>
      { typed with model := typed.model.setFocusedKey (some k) none }.answer .done
    | .noMatch => typed.answer .done
    | .ignored => typed.typeApart c mods

/-- Whether a keystroke selects everything. -/
def selectsAll (l : ListControl K T) (stroke : KeyStroke) (mods : Modifiers) : Bool :=
  (stroke == .character 'a' || stroke == .character 'A') && mods.isCtrlLike l.config.platform &&
    l.model.mode == .multiple && !l.config.disallowSelectAll

/-- A key goes down. -/
def keyDown (l : ListControl K T) (stroke : KeyStroke) (mods : Modifiers)
    (layout : Option (Layout K)) (now : Nat) : Reaction K T (Response K) :=
  let l := { l with model := l.model.setFocusVisible true }
  let command := mods.isCtrlLike l.config.platform
  if l.selectsAll stroke mods then l.update l.model.selectAll .done
  else
    match stroke with
    | .arrowDown => l.navigate .below mods layout true
    | .arrowUp => l.navigate .above mods layout true
    | .arrowLeft => l.navigate .leftOf mods layout true
    | .arrowRight => l.navigate .rightOf mods layout true
    | .pageDown => l.navigate .pageBelow mods layout true
    | .pageUp => l.navigate .pageAbove mods layout true
    | .home => l.navigate .first mods layout command
    | .endKey => l.navigate .last mods layout command
    | .escape => l.escape
    | .enter => l.activateFocused true mods
    | .space => l.type ' ' mods now
    | .character c => l.type c mods now
    | .tab => { l with typeahead := l.typeahead.reset }.answer .ignored

end ListControl

end Listbox
