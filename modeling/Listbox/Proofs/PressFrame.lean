import Listbox.ListControl.Event

set_option autoImplicit false

/-! # What does not look at the press

Keys have nothing to do with the press that is going on: with another press in its place they come
to the same, and leave that one where it was, with all that is remembered of its start. -/

universe u v

namespace Listbox

variable {K : Type u} {T : Type v} {α : Type u} [DecidableEq K] [Hashable K]

/-- The list control with another press in place of its own. -/
def ListControl.withPress (l : ListControl K T) (press : PressTracker K) : ListControl K T :=
  { l with press }

/-- The reaction of a list control with another press. -/
def Reaction.withPress (r : Reaction K T α) (press : PressTracker K) : Reaction K T α :=
  { r with control := r.control.withPress press }

theorem Reaction.withPress_ite {p : Prop} [Decidable p] (r r' : Reaction K T α)
    (press : PressTracker K) :
    (if p then r else r').withPress press =
      if p then r.withPress press else r'.withPress press := by
  split
  · rfl
  · rfl

namespace ListControl

variable (l : ListControl K T) (press : PressTracker K)

theorem escape_withPress : (l.withPress press).escape = l.escape.withPress press := by
  unfold escape
  rw [Reaction.withPress_ite]
  rfl

theorem activateFocused_withPress (withEnter : Bool) (mods : Modifiers) :
    (l.withPress press).activateFocused withEnter mods =
      (l.activateFocused withEnter mods).withPress press := by
  unfold activateFocused
  rw [show (l.withPress press).model = l.model from rfl]
  cases l.model.focus.key with
  | none => rfl
  | some k =>
    simp only [Reaction.withPress_ite]
    rfl

theorem typeApart_withPress (c : Char) (mods : Modifiers) :
    (l.withPress press).typeApart c mods = (l.typeApart c mods).withPress press := by
  unfold typeApart
  rw [Reaction.withPress_ite, activateFocused_withPress]
  rfl

theorem type_withPress (c : Char) (mods : Modifiers) (now : Nat) :
    (l.withPress press).type c mods now = (l.type c mods now).withPress press := by
  have hinput : (l.withPress press).typeahead.input ((l.withPress press).navigator none).navigable
      (l.withPress press).model.focus.key c now =
      l.typeahead.input (l.navigator none).navigable l.model.focus.key c now := rfl
  simp only [type, Reaction.withPress_ite, typeApart_withPress, hinput]
  refine congrArg _ ?_
  generalize l.typeahead.input _ _ c now = result
  obtain ⟨outcome, typeahead⟩ := result
  cases outcome with
  | focus k => rfl
  | noMatch => rfl
  | ignored => exact typeApart_withPress { l with typeahead } press c mods

theorem navigate_withPress (move : Move) (mods : Modifiers) (layout : Option (Layout K))
    (shiftExtends : Bool) :
    (l.withPress press).navigate move mods layout shiftExtends =
      (l.navigate move mods layout shiftExtends).withPress press := by
  unfold navigate
  rw [show (l.withPress press).moveTarget? move layout = l.moveTarget? move layout from rfl]
  cases l.moveTarget? move layout with
  | none => rfl
  | some k =>
    simp only [Reaction.withPress_ite]
    rfl

/-- **Keys.** A key does the same whatever is pressed. -/
theorem keyDown_withPress (stroke : KeyStroke) (mods : Modifiers) (layout : Option (Layout K))
    (now : Nat) :
    (l.withPress press).keyDown stroke mods layout now =
      (l.keyDown stroke mods layout now).withPress press := by
  have hshown : { l.withPress press with model := (l.withPress press).model.setFocusVisible true } =
      ListControl.withPress { l with model := l.model.setFocusVisible true } press := rfl
  simp only [keyDown, hshown, Reaction.withPress_ite]
  refine congrArg _ ?_
  cases stroke with
  | arrowDown | arrowUp | arrowLeft | arrowRight | pageDown | pageUp | home | endKey =>
    exact navigate_withPress ..
  | escape => exact escape_withPress ..
  | enter => exact activateFocused_withPress ..
  | space | character => exact type_withPress ..
  | tab => rfl

/-! ## What is remembered of the press -/

theorem pressContext_escape : l.escape.control.pressContext = l.pressContext := by
  unfold escape
  split
  · rfl
  · rfl

theorem pressContext_activateFocused (withEnter : Bool) (mods : Modifiers) :
    (l.activateFocused withEnter mods).control.pressContext = l.pressContext := by
  unfold activateFocused
  split
  · rfl
  · repeat' split
    all_goals rfl

theorem pressContext_typeApart (c : Char) (mods : Modifiers) :
    (l.typeApart c mods).control.pressContext = l.pressContext := by
  unfold typeApart
  split
  · exact l.pressContext_activateFocused false mods
  · rfl

theorem pressContext_type (c : Char) (mods : Modifiers) (now : Nat) :
    (l.type c mods now).control.pressContext = l.pressContext := by
  unfold type
  split
  · exact l.pressContext_typeApart c mods
  · generalize l.typeahead.input _ _ c now = result
    obtain ⟨outcome, typeahead⟩ := result
    cases outcome with
    | focus k => rfl
    | noMatch => rfl
    | ignored => exact pressContext_typeApart { l with typeahead } c mods

theorem pressContext_navigate (move : Move) (mods : Modifiers) (layout : Option (Layout K))
    (shiftExtends : Bool) :
    (l.navigate move mods layout shiftExtends).control.pressContext = l.pressContext := by
  unfold navigate
  split
  · rfl
  · simp only
    repeat' split
    all_goals rfl

theorem pressContext_keyDown (stroke : KeyStroke) (mods : Modifiers) (layout : Option (Layout K))
    (now : Nat) : (l.keyDown stroke mods layout now).control.pressContext = l.pressContext := by
  unfold keyDown
  simp only
  split
  · rfl
  · cases stroke with
    | arrowDown | arrowUp | arrowLeft | arrowRight | pageDown | pageUp | home | endKey =>
      exact pressContext_navigate ..
    | escape => exact pressContext_escape _
    | enter => exact pressContext_activateFocused ..
    | space | character => exact pressContext_type ..
    | tab => rfl

end ListControl

end Listbox
