import Listbox.Text.Lowercase

set_option autoImplicit false

/-! # Collation

A `Collator` decides when two texts count as the same and which comes first, and when a text starts
with another. Unless it brings a test of its own, that follows from the comparison: cut to as many
characters, the text must count as the same. -/

namespace Listbox

/-- The first `n` characters of a text. -/
def Collator.cut (n : Nat) (s : String) : String := String.ofList (s.toList.take n)

/-- An order of texts. -/
structure Collator where
  compare : String → String → Ordering
  /-- Whether `text`, cut to the length of `start`, counts as the same as `start`. -/
  isPrefixOf (start text : String) : Bool := compare (Collator.cut start.length text) start == .eq

namespace Collator

/-- By the lower-case forms of the characters. -/
def caseInsensitive : Collator := { compare s t := Ord.compare (Text.fold s) (Text.fold t) }

/-- By code point. -/
def exact : Collator := { compare s t := Ord.compare s.toList t.toList }

/-- By code point, with the letters of the ASCII range in lower case. -/
def asciiInsensitive : Collator :=
  { compare s t := Ord.compare (s.toList.map Char.toLower) (t.toList.map Char.toLower) }

/-- The opposite order. -/
def swap (c : Collator) : Collator := { compare s t := c.compare t s }

end Collator

end Listbox
