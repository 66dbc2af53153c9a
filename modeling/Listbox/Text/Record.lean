set_option autoImplicit false

/-! # The text of values

How logs write values down: a record is its name and its fields between braces, a list is its
elements between brackets, and a value that may be missing is `Some` value or `None`. -/

namespace Listbox.Text

/-- The fields of a record in order. -/
abbrev Fields := List (String × String)

/-- A field as it stands in a record. -/
def field : String × String → String
  | (name, value) => name ++ ": " ++ value

/-- A record that shows all its fields. -/
def record (name : String) (fields : Fields) : String :=
  name ++ " \x7b " ++ String.intercalate ", " (fields.map field) ++ " \x7d"

/-- A record that has more fields than it shows. -/
def openRecord (name : String) (fields : Fields) : String :=
  name ++ " \x7b " ++ String.intercalate ", " (fields.map field ++ [".."]) ++ " \x7d"

/-- The elements of a list. -/
def list (elements : List String) : String := "[" ++ String.intercalate ", " elements ++ "]"

/-- A value that may be missing. -/
def optional : Option String → String
  | none => "None"
  | some value => "Some(" ++ value ++ ")"

def bool (b : Bool) : String := if b then "true" else "false"

end Listbox.Text
