import Listbox.Collection.Layout

set_option autoImplicit false

/-! # Assembling a forest

`Assembly.add` puts the rows of a forest one after the other at the end of an array, a parent before
its children, and enters each key into a table on the way. A row is placed without links: it is tied
to its parent and to the sibling before it only when everything below it stands, by editing rows
that were placed earlier. -/

universe u v

namespace Listbox

/-- A row that knows where it stands and what is above it, and nothing else yet. -/
def Node.unlinked {K : Type u} {T : Type v} (e : Entry K T) (index level : Nat)
    (parent : Option K) : Node K T :=
  { toEntry := e, index, level, parent, prev := none, next := none, firstChild := none,
    lastChild := none }

/-- The rows placed so far, the position of each key, and how many of the rows are items. -/
structure Assembly (K : Type u) (T : Type v) [DecidableEq K] [Hashable K] where
  nodes : Array (Node K T)
  positions : Std.HashMap K Nat
  itemCount : Nat

namespace Assembly

variable {K : Type u} {T : Type v} [DecidableEq K] [Hashable K]

/-- Nothing placed yet. -/
def empty : Assembly K T := ⟨#[], ∅, 0⟩

def keyAt? (a : Assembly K T) (i : Nat) : Option K := a.nodes[i]?.map (·.key)

/-- Places `e` after all other rows, below the row at `parent`. -/
def place (a : Assembly K T) (e : Entry K T) (parent : Option Nat) (level : Nat) :
    Assembly K T where
  nodes := a.nodes.push (.unlinked e a.nodes.size level (parent.bind a.keyAt?))
  positions := a.positions.insert e.key a.nodes.size
  itemCount := if e.isItem then a.itemCount + 1 else a.itemCount

/-- Changes the row at position `i`. -/
def edit (a : Assembly K T) (i : Nat) (g : Node K T → Node K T) : Assembly K T :=
  { a with nodes := a.nodes.modify i g }

/-- Makes the rows at `prev` and at `next` siblings. -/
def linkSiblings (a : Assembly K T) (prev : Option Nat) (next : Nat) : Assembly K T :=
  match prev with
  | none => a
  | some prev =>
    let nextKey := a.keyAt? next
    let prevKey := a.keyAt? prev
    (a.edit prev fun n => { n with next := nextKey }).edit next fun n => { n with prev := prevKey }

/-- Makes the row at `child` the last child of the row at `parent`, and the first one if no sibling
is before it. -/
def linkParent (a : Assembly K T) (parent prev : Option Nat) (child : Nat) : Assembly K T :=
  match parent with
  | none => a
  | some parent =>
    let key := a.keyAt? child
    a.edit parent fun n =>
      { n with firstChild := if prev.isNone then key else n.firstChild, lastChild := key }

/-- Ties the row at `child` to the row above it and to the sibling before it. -/
def link (a : Assembly K T) (parent prev : Option Nat) (child : Nat) : Assembly K T :=
  (a.linkSiblings prev child).linkParent parent prev child

/-- Adds the trees of a forest below the row at `parent`, after the sibling at `prev`. -/
def add (a : Assembly K T) (parent prev : Option Nat) (level : Nat) :
    Forest (Entry K T) → Except (BuildError K) (Assembly K T)
  | .nil => .ok a
  | .tree e cs rest =>
    if a.positions.contains e.key then .error (.duplicateKey e.key)
    else do
      let i := a.nodes.size
      let below ← (a.place e parent level).add (some i) none (level + 1) cs
      (below.link parent prev i).add parent (some i) level rest

/-- The rows of a forest that stands by itself. -/
def assemble (f : Forest (Entry K T)) : Except (BuildError K) (Assembly K T) :=
  empty.add none none 0 f

end Assembly

end Listbox
