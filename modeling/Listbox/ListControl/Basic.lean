import Listbox.Navigation.Navigator
import Listbox.Press
import Listbox.SelectionModel.Update
import Listbox.Typeahead

set_option autoImplicit false

/-! # List controls

A `ListControl` is a selection model with everything that turns input into selections: the press
that is going on, the text that is being typed, and the choices about actions. This module says what
can be done to each row: whether it can be selected, and whether it has an action that runs at once
(a primary one) or beside its selection (a secondary one). -/

universe u v

namespace Listbox

/-- When an action comes before selection in a list that toggles. -/
inductive ToggleActionPolicy where
  /-- While nothing is selected. -/
  | actionWhenEmpty
  /-- Never. -/
  | selectionFirst
  deriving DecidableEq

/-- What the escape key does. -/
inductive EscapeKeyBehavior where
  | clearSelection
  | none
  deriving DecidableEq

/-- The choices of one list control. -/
structure InteractionConfig where
  /-- Whether rows have an action besides following links. -/
  hasAction : Bool := false
  toggleActionPolicy : ToggleActionPolicy := .actionWhenEmpty
  escapeKeyBehavior : EscapeKeyBehavior := .clearSelection
  platform : Platform := .other
  /-- Whether presses select when they end, whatever they are made with. -/
  selectOnPressUp : Bool := false
  disallowSelectAll : Bool := false
  disallowTypeahead : Bool := false
  navigation : NavigationConfig := {}
  press : PressConfig := {}

/-- What is to be done with a row besides selecting it. -/
inductive Activation (K : Type u) where
  | action (k : K)
  | followLink (k : K)
  deriving DecidableEq

/-- What an input comes to. -/
structure Response (K : Type u) where
  /-- Whether the input is used up. -/
  handled : Bool
  activation : Option (Activation K)
  deriving DecidableEq

namespace Response

variable {K : Type u}

def ignored : Response K := ⟨false, none⟩

def done : Response K := ⟨true, none⟩

/-- The input is used up, and the activation is to be carried out. -/
def activate (a : Option (Activation K)) : Response K := ⟨true, a⟩

end Response

/-- What is remembered from the start of a press. -/
structure PressContext where
  modifiers : Modifiers
  /-- Whether the row had a primary action then. -/
  hadPrimaryAction : Bool
  deriving DecidableEq

/-- A selection model with the state of its input. -/
structure ListControl (K : Type u) (T : Type v) [DecidableEq K] [Hashable K] where
  model : SelectionModel K T
  config : InteractionConfig
  typeahead : Typeahead
  press : PressTracker K
  pressContext : Option PressContext

/-- How a row is to be drawn. -/
structure ItemState where
  isSelected : Bool
  isFocused : Bool
  isDisabled : Bool
  isPressed : Bool
  hasAction : Bool
  allowsSelection : Bool
  isFocusVisible : Bool
  deriving DecidableEq

namespace ListControl

variable {K : Type u} {T : Type v} [DecidableEq K] [Hashable K]

/-- Nothing pressed, nothing typed. -/
def new (model : SelectionModel K T) (config : InteractionConfig) : ListControl K T :=
  { model, config, typeahead := .new, press := .new config.press, pressContext := none }

/-! ## What can be done to a row -/

/-- Whether gestures may select a row. -/
def allowsSelection (l : ListControl K T) (k : K) : Bool :=
  !l.model.isDisabled k && l.model.canSelect k

/-- Whether the action of a row is to follow its link. -/
def followsLink (l : ListControl K T) (k : K) : Bool :=
  l.model.isLink k &&
    (l.model.config.linkBehavior == .action || l.model.config.linkBehavior == .override)

/-- Whether a row has an action of either kind. -/
def allowsActions (l : ListControl K T) (k : K) : Bool :=
  !l.model.isDisabled k && l.model.collection.contains k &&
    (l.config.hasAction || l.followsLink k)

/-- Whether a plain press on a row runs its action instead of selecting it. -/
def hasPrimaryAction (l : ListControl K T) (k : K) : Bool :=
  l.allowsActions k &&
    (!l.allowsSelection k ||
      (l.model.behavior == .toggle && l.config.toggleActionPolicy == .actionWhenEmpty &&
        l.model.isEmpty))

/-- Whether a row that a plain press selects has an action too. -/
def hasSecondaryAction (l : ListControl K T) (k : K) : Bool :=
  l.allowsActions k && l.allowsSelection k &&
    (l.model.behavior == .replace || l.config.toggleActionPolicy == .selectionFirst)

def hasAction (l : ListControl K T) (k : K) : Bool := l.hasPrimaryAction k || l.hasSecondaryAction k

def itemState (l : ListControl K T) (k : K) : ItemState :=
  let isFocused := l.model.focus.inside && l.model.focus.key == some k
  { isSelected := l.model.isSelected k
    isFocused
    isDisabled := l.model.isDisabled k
    isPressed := l.press.isPressed k
    hasAction := l.hasAction k
    allowsSelection := l.allowsSelection k
    isFocusVisible := isFocused && l.model.focus.visible }

/-- The navigator over what the model lets be focused. -/
def navigator (l : ListControl K T) (layout : Option (Layout K)) : Navigator K T :=
  { Navigator.ofModel l.model l.config.navigation with layout }

end ListControl

end Listbox
