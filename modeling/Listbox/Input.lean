set_option autoImplicit false

/-! # Input events

The keys, pointers and modifiers that a list control hears of. -/

namespace Listbox

/-- Whose keyboard conventions hold. -/
inductive Platform where
  | apple
  | other
  deriving DecidableEq

/-- The modifier keys held down. -/
structure Modifiers where
  shift : Bool := false
  ctrl : Bool := false
  alt : Bool := false
  command : Bool := false
  deriving DecidableEq

namespace Modifiers

/-- The modifiers as a number: one bit each, in the order of the fields. -/
def bits (m : Modifiers) : Nat :=
  m.shift.toNat + 2 * m.ctrl.toNat + 4 * m.alt.toNat + 8 * m.command.toNat

/-- Whether the key is down that commands are given with. -/
def isCtrlLike (m : Modifiers) : Platform → Bool
  | .apple => m.command
  | .other => m.ctrl

/-- Whether a character typed with these modifiers belongs to a shortcut. -/
def isShortcut (m : Modifiers) : Bool := m.ctrl || m.command

end Modifiers

/-- What a press was made with. -/
inductive PointerType where
  | mouse
  | pen
  | touch
  | keyboard
  /-- A click that assistive technology makes. -/
  | virtual
  deriving DecidableEq

/-- Whether presses select when they begin rather than when they end. -/
def PointerType.selectsOnPressStart : PointerType → Bool
  | .mouse => true
  | _ => false

/-- A key that was pressed. -/
inductive KeyStroke where
  | arrowDown
  | arrowUp
  | arrowLeft
  | arrowRight
  | home
  | endKey
  | pageDown
  | pageUp
  | enter
  | space
  | escape
  | tab
  | character (c : Char)
  deriving DecidableEq

end Listbox
