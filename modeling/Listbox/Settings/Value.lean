set_option autoImplicit false

/-! # Settings

A `Setting` is a value as it stands in a settings file. The readers here take a value only if it has
the right form: a whole number is not read from a fraction, and nothing is read from a missing
value. -/

universe u

namespace Listbox

/-- A value in a settings file. -/
inductive Setting where
  | null
  | bool (b : Bool)
  /-- A number written without a fraction or an exponent. -/
  | int (n : Int)
  /-- Any other number. -/
  | real (x : Float)
  | text (s : String)
  | list (elements : List Setting)
  | table (fields : List (String × Setting))

namespace Setting

def bool? : Setting → Option Bool
  | bool b => some b
  | _ => none

/-- A whole number of 64 bits without a sign. -/
def natural? : Setting → Option Nat
  | int n => if 0 ≤ n ∧ n ≤ 0xFFFFFFFFFFFFFFFF then some n.toNat else none
  | _ => none

/-- A number of either form. -/
def float? : Setting → Option Float
  | int n => some (Float.ofInt n)
  | real x => some x
  | _ => none

def text? : Setting → Option String
  | text s => some s
  | _ => none

def list? : Setting → Option (List Setting)
  | list elements => some elements
  | _ => none

def table? : Setting → Option (List (String × Setting))
  | table fields => some fields
  | _ => none

/-- A word, or a table whose one field has that name and no value. -/
def word? : Setting → Option String
  | text s => some s
  | table [(name, null)] => some name
  | _ => none

/-- The fields of a record whose fields have these names in this order: those of a table, or those
that the elements of a list stand for, which may stop early. -/
def record? (names : List String) : Setting → Option (List (String × Setting))
  | table fields => some fields
  | list elements => if elements.length ≤ names.length then some (names.zip elements) else none
  | _ => none

/-- The field `name` of a record as `read` takes it, or `default` where there is no such field. -/
def fieldOr {α : Type u} (fields : List (String × Setting)) (name : String)
    (read : Setting → Option α) (default : α) : Option α :=
  match fields.lookup name with
  | none => some default
  | some s => read s

end Setting

end Listbox
