import Listbox.ListControl.Keyboard
import Listbox.ListControl.Pointer
import Listbox.SelectionModel.Operation

set_option autoImplicit false

/-! # Events of a list control

Everything that can happen to a list control, as data. A run of events is a list of them. -/

universe u v

namespace Listbox

/-- What can happen to a list control. -/
inductive Event (K : Type u) (T : Type v) [DecidableEq K] [Hashable K] where
  | pressStart (k : K) (pointer : PointerType) (mods : Modifiers) (origin : Point) (now : Nat)
  | pressMove (point : Point)
  | pressUp (target : Option K) (point : Point) (now : Nat)
  | pressCancel
  | click (k : K) (pointer : PointerType) (mods : Modifiers) (now : Nat)
  | poll (now : Nat)
  | keyDown (stroke : KeyStroke) (mods : Modifiers) (layout : Option (Layout K)) (now : Nat)
  | focusIn (entry : FocusEntry)
  | focusOut
  | setEdition (e : Edition K T)
  /-- An operation on the model, past the control. -/
  | operation (op : Operation K T)

/-- What an event is answered with. -/
inductive Answer (K : Type u) where
  | none
  | flag (b : Bool)
  | response (r : Response K)
  deriving DecidableEq

namespace ListControl

variable {K : Type u} {T : Type v} [DecidableEq K] [Hashable K]

/-- Moves on to another edition. A press on a key that it lacks is given up. -/
def setEdition (l : ListControl K T) (e : Edition K T) : Reaction K T (Answer K) :=
  let kept := if l.press.pressedKey?.all e.collection.contains then l else l.pressCancel
  kept.update (kept.model.setEdition e) .none

/-- The answer that a response is. -/
def respond (r : Reaction K T (Response K)) : Reaction K T (Answer K) :=
  ⟨r.control, r.reports, .response r.result⟩

/-- What an event comes to. -/
def handle (l : ListControl K T) : Event K T → Reaction K T (Answer K)
  | .pressStart k pointer mods origin now => respond (l.pressStart k pointer mods origin now)
  | .pressMove point =>
    let (given, moved) := l.pressMove point
    moved.answer (.flag given)
  | .pressUp target point now => respond (l.pressUp target point now)
  | .pressCancel => l.pressCancel.answer .none
  | .click k pointer mods now => respond (l.click k pointer mods now)
  | .poll now => respond (l.poll now)
  | .keyDown stroke mods layout now => respond (l.keyDown stroke mods layout now)
  | .focusIn entry => l.update (l.focusIn entry) .none
  | .focusOut => l.focusOut.answer .none
  | .setEdition e => l.setEdition e
  | .operation op => l.update (l.model.apply op) .none

/-- A list control after a run of events. -/
def run (l : ListControl K T) (events : List (Event K T)) : ListControl K T :=
  events.foldl (fun l event => (l.handle event).control) l

end ListControl

end Listbox
