import Listbox.Text.Quoted

set_option autoImplicit false

/-! # Keys

A `Key` names a row by a number or by a text; the number 1 and the text "1" name different rows. The
rest of the library works for keys of any type, and this is the one that callers can write down. -/

namespace Listbox

/-- The name of a row. -/
inductive Key where
  | number (n : Int)
  | text (s : String)
  deriving DecidableEq, Hashable

namespace Key

instance : Inhabited Key := ⟨number 0⟩

/-- The key as part of a longer text. -/
def display : Key → String
  | number n => toString n
  | text s => s

/-- The key in a message: texts stand between quotes. -/
def quote : Key → String
  | number n => toString n
  | text s => Text.quote s

/-- The number that a key is, if it is one and not negative. -/
def index? : Key → Option Nat
  | number n => n.toNat?
  | text _ => none

/-- Numbers come before texts, numbers by size and texts by code point. -/
def le : Key → Key → Bool
  | number m, number n => m ≤ n
  | number _, text _ => true
  | text _, number _ => false
  | text s, text t => s ≤ t

/-- The keys of a list in order. -/
def sort (ks : List Key) : List Key := ks.mergeSort le

end Key

end Listbox
