import Listbox.Navigation.Navigable
import Listbox.Text.Blank

set_option autoImplicit false

/-! # Typeahead

Typing moves the focus to a row that starts with what was typed. The characters gather in a buffer
until a pause; a character that fits nothing starts a new search by itself before the search is
given up. -/

universe u

namespace Listbox

/-- How long, in milliseconds, a buffer lives without input. -/
def typeaheadTimeout : Nat := 1000

/-- What was typed lately. -/
structure Typeahead where
  buffer : String
  /-- The time of the last character in the buffer. -/
  lastInput : Option Nat
  timeout : Nat
  deriving DecidableEq

/-- What a character came to. -/
inductive TypeOutcome (K : Type u) where
  /-- It is not for searching. -/
  | ignored
  | noMatch
  | focus (k : K)
  deriving DecidableEq

namespace Typeahead

variable {K : Type u}

/-- Nothing typed yet. -/
def withTimeout (timeout : Nat) : Typeahead := ⟨"", none, timeout⟩

def new : Typeahead := withTimeout typeaheadTimeout

/-- Forgets what was typed. -/
def reset (t : Typeahead) : Typeahead := { t with buffer := "", lastInput := none }

/-- Whether the pause since the last character is too long. A clock that goes back makes none. -/
def isExpired (t : Typeahead) (now : Nat) : Bool :=
  t.lastInput.all fun last => t.timeout ≤ now - last

/-- Whether a search is going on. -/
def isActive (t : Typeahead) (now : Nat) : Bool := !t.buffer.isEmpty && !t.isExpired now

/-- What a text finds: the focused key if the text goes on from an earlier one and still finds it,
and otherwise the next key. -/
def find? (n : Navigable K) (focused : Option K) (continues : Bool) (text : String) : Option K :=
  ((focused.filter fun k => continues && n.finds text k)).or (n.search? text focused)

/-- Types a character at a time. -/
def input (t : Typeahead) (n : Navigable K) (focused : Option K) (c : Char) (now : Nat) :
    TypeOutcome K × Typeahead :=
  if Text.isControl c then (.ignored, t)
  else
    let t := if t.isExpired now then t.reset else t
    if c = ' ' ∧ Text.isBlank t.buffer then (.ignored, t)
    else
      let continues := !t.buffer.isEmpty
      let text := t.buffer.push c
      match find? n focused continues text with
      | some k => (.focus k, { t with buffer := text, lastInput := some now })
      | none =>
        let alone := String.singleton c
        match if continues then n.search? alone focused else none with
        | some k => (.focus k, { t with buffer := alone, lastInput := some now })
        | none => (.noMatch, t.reset)

end Typeahead

end Listbox
