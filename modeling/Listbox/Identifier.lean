set_option autoImplicit false

/-! # Identifiers

A list control names itself and its rows for others to refer to. An `IdSource` numbers the lists
under its stem, and a row is named after its list and its key; a dash stands between the parts. -/

namespace Listbox

/-- Where list identifiers come from. -/
structure IdSource where
  stem : String
  /-- The number of the next identifier. It has no bound; a counter of 64 bits agrees with it for
  the first `2 ^ 64` identifiers. -/
  next : Nat
  deriving DecidableEq

/-- Two parts of an identifier. -/
def dashed (a b : String) : String := a ++ "-" ++ b

namespace IdSource

/-- A source that has handed nothing out. -/
def new (stem : String) : IdSource := ⟨stem, 0⟩

/-- An identifier that this source has not handed out before. -/
def nextId (s : IdSource) : String × IdSource :=
  (dashed s.stem (toString s.next), { s with next := s.next + 1 })

/-- The identifiers that this source hands out next, `n` of them. -/
def nextIds (s : IdSource) : Nat → List String
  | 0 => []
  | n + 1 => s.nextId.1 :: s.nextId.2.nextIds n

/-- The identifier of the row that displays as `key` in the list `list`. -/
def itemId (_ : IdSource) (list key : String) : String := dashed list key

end IdSource

end Listbox
