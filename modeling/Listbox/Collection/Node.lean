import Listbox.Forest

set_option autoImplicit false

/-! # Entries and nodes

An `Entry` is what a caller says about one row of a list: its key, its text, and whether it is
disabled or a link. A `Node` is an entry that has found its place in a collection: it also knows its
index, its depth, and the keys of its relatives. -/

universe u v

namespace Listbox

/-- What a row is: something to choose, or a section that groups the rows under it. -/
inductive NodeKind where
  | item
  | group
  deriving DecidableEq

/-- What a caller says about one row. -/
structure Entry (K : Type u) (T : Type v) where
  /-- The identity of the row; no two rows of a collection share it. -/
  key : K
  kind : NodeKind
  /-- The text that typing searches. -/
  text : String
  /-- What the row stands for; sections stand for nothing. -/
  value : Option T
  disabled : Bool
  /-- The address that the row links to, if it is a link. -/
  href : Option String
  deriving DecidableEq

/-- A row in its place. -/
structure Node (K : Type u) (T : Type v) extends Entry K T where
  /-- The position in reading order, from zero. -/
  index : Nat
  /-- The number of ancestors. -/
  level : Nat
  parent : Option K
  /-- The sibling before this node. -/
  prev : Option K
  /-- The sibling after this node. -/
  next : Option K
  firstChild : Option K
  lastChild : Option K
  deriving DecidableEq

namespace Entry

variable {K : Type u} {T : Type v}

/-- An enabled item that is no link. -/
def item (key : K) (text : String) (value : T) : Entry K T :=
  { key, kind := .item, text, value := some value, disabled := false, href := none }

/-- An enabled section that is no link. -/
def group (key : K) (title : String) : Entry K T :=
  { key, kind := .group, text := title, value := none, disabled := false, href := none }

def isItem (e : Entry K T) : Bool := e.kind == .item

def isGroup (e : Entry K T) : Bool := e.kind == .group

def isLink (e : Entry K T) : Bool := e.href.isSome

theorem isGroup_eq_not_isItem (e : Entry K T) : e.isGroup = !e.isItem := by
  unfold isGroup isItem
  cases e.kind <;> rfl

end Entry

/-- Whether some row lies directly below this one. -/
def Node.hasChildren {K : Type u} {T : Type v} (n : Node K T) : Bool := n.firstChild.isSome

end Listbox
