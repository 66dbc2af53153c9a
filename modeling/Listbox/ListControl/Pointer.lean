import Listbox.ListControl.Select

set_option autoImplicit false

/-! # Presses on a list control

A mouse selects when the button goes down, everything else when it goes up; what runs an action does
so when the press ends. A click is a press that ends at once where it began, and a touch that is held
on a row with a secondary action selects the row and makes the list toggle for a while. -/

universe u v

namespace Listbox.ListControl

variable {K : Type u} {T : Type v} [DecidableEq K] [Hashable K]

/-- The list control while a press on `k` begins: the row gets the focus. -/
def beginPress (l : ListControl K T) (k : K) (pointer : PointerType) (mods : Modifiers)
    (origin : Point) (now : Nat) : ListControl K T :=
  { l with
    pressContext := some { modifiers := mods, hadPrimaryAction := l.hasPrimaryAction k }
    press := l.press.start k pointer origin now
    model := ((l.model.setFocused true).setFocusVisible (pointer == .keyboard)).setFocusedKey
      (some k) none }

/-- A press begins on a row. -/
def pressStart (l : ListControl K T) (k : K) (pointer : PointerType) (mods : Modifiers)
    (origin : Point) (now : Nat) : Reaction K T (Response K) :=
  if l.model.isDisabled k || !l.model.collection.contains k then l.answer .ignored
  else
    let begun := l.beginPress k pointer mods origin now
    if pointer.selectsOnPressStart && !l.hasPrimaryAction k && !l.config.selectOnPressUp &&
        begun.allowsSelection k then
      begun.select k pointer mods
    else begun.answer .done

/-- The pointer moves; the answer is whether the press is given up. -/
def pressMove (l : ListControl K T) (point : Point) : Bool × ListControl K T :=
  match l.press.move point with
  | (true, press) => (true, { l with press, pressContext := none })
  | (false, press) => (false, { l with press })

/-- The press is given up. -/
def pressCancel (l : ListControl K T) : ListControl K T :=
  { l with press := l.press.cancel, pressContext := none }

/-- What a click comes to, given what is remembered from its start. -/
def clicked (l : ListControl K T) (click : Click K) (context : PressContext) :
    Reaction K T (Response K) :=
  let k := click.key
  if click.afterLongPress then l.answer .done
  else if l.model.isDisabled k || !l.model.collection.contains k then l.answer .ignored
  else if click.pointer = .mouse then
    if context.hadPrimaryAction then l.act k
    else if click.count = 2 ∧ l.hasSecondaryAction k then l.act k
    else if l.config.selectOnPressUp && l.allowsSelection k then
      l.select k click.pointer context.modifiers
    else l.answer .done
  else if l.hasPrimaryAction k || (l.hasSecondaryAction k && l.model.behavior == .replace) then
    l.act k
  else if l.allowsSelection k then l.select k click.pointer context.modifiers
  else l.answer .done

/-- The press ends over a row or over none. -/
def pressUp (l : ListControl K T) (target : Option K) (point : Point) (now : Nat) :
    Reaction K T (Response K) :=
  let (click, press) := l.press.finish target point now
  let ended := { l with press, pressContext := none }
  match click, l.pressContext with
  | some click, some context => ended.clicked click context
  | _, _ => ended.answer .ignored

/-- A press that begins and ends on one row at one time. -/
def click (l : ListControl K T) (k : K) (pointer : PointerType) (mods : Modifiers) (now : Nat) :
    Reaction K T (Response K) :=
  let down := l.pressStart k pointer mods .zero now
  if !down.result.handled then down
  else
    let up := down.control.pressUp (some k) .zero now
    { control := up.control
      reports := down.reports ++ up.reports
      result := .activate (down.result.activation.or up.result.activation) }

/-- Whether a long press on a row selects it. -/
def allowsLongPress (l : ListControl K T) (k : K) : Bool :=
  l.hasAction k && l.allowsSelection k && l.model.behavior == .replace

/-- Time passes, and a touch may become a long press. -/
def poll (l : ListControl K T) (now : Nat) : Reaction K T (Response K) :=
  let (held, press) := l.press.poll now
  let polled := { l with press }
  match held with
  | none => polled.answer .ignored
  | some k =>
    if polled.allowsLongPress k then
      let chosen := polled.select k .touch ((l.pressContext.map (·.modifiers)).getD {})
      { chosen with
        control := { chosen.control with model := chosen.control.model.setBehavior .toggle } }
    else polled.answer .ignored

end Listbox.ListControl
