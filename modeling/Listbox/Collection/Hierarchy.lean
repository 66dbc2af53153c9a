import Listbox.Collection.Basic

set_option autoImplicit false

/-! # Walking the hierarchy

Parents, children and siblings are found by following the links of the nodes. Parents stand before
their children in reading order, and first children, last children and next siblings stand after the
node that names them; each walk checks that it moves that way, so each of them ends. -/

universe u v

namespace Listbox.Collection

variable {K : Type u} {T : Type v} [DecidableEq K] [Hashable K]

/-- The position after `i` of a linked key. -/
def later? (c : Collection K T) (i : Nat) (link : Option K) : Option { j // i < j ∧ j < c.size } :=
  (link.bind c.position?).bind fun j =>
    if h : i < j ∧ j < c.size then some ⟨j, h⟩ else none

/-- The position before `i` of a linked key. -/
def earlier? (c : Collection K T) (i : Nat) (link : Option K) : Option { j // j < i } :=
  (link.bind c.position?).bind fun j =>
    if h : j < i then some ⟨j, h⟩ else none

/-- The node at `i`, then those that `link` leads to one after the other. -/
def along (c : Collection K T) (link : Node K T → Option K) (i : Nat) : List (Node K T) :=
  match c.at? i with
  | none => []
  | some n =>
    n :: match c.later? i (link n) with
      | some j => c.along link j
      | none => []
  termination_by c.size - i

/-- The ancestors of the node at `i`, nearest first. -/
def above (c : Collection K T) (i : Nat) : List (Node K T) :=
  match c.at? i with
  | none => []
  | some n =>
    match c.earlier? i n.parent with
    | some j => (c.at? j).toList ++ c.above j
    | none => []
  termination_by i

/-! ## Relatives of a key -/

/-- The node directly above. -/
def parent? (c : Collection K T) (k : K) : Option (Node K T) :=
  (c.get? k).bind fun n => n.parent.bind c.get?

/-- The ancestors of a key, outermost first. -/
def ancestors (c : Collection K T) (k : K) : List (Node K T) :=
  match c.position? k with
  | some i => (c.above i).reverse
  | none => []

/-- The nodes directly below a key, in order. -/
def children (c : Collection K T) (k : K) : List (Node K T) :=
  match (c.get? k).bind (·.firstChild.bind c.position?) with
  | some i => c.along (·.next) i
  | none => []

/-- The nodes without a parent: the first node and the siblings after it. -/
def roots (c : Collection K T) : List (Node K T) := c.along (·.next) 0

/-! ## The edges of a section -/

/-- The nearest section among the ancestors of a key. -/
def enclosingGroup? (c : Collection K T) (k : K) : Option (Node K T) :=
  match c.position? k with
  | some i => (c.above i).find? (·.isGroup)
  | none => none

/-- The last node below `n`, at any depth. -/
def lastDescendant? (c : Collection K T) (n : Node K T) : Option (Node K T) :=
  (n.lastChild.bind c.position?).bind fun i => (c.along (·.lastChild) i).getLast?

/-- The first key of the section around `start`, or of the whole collection if there is no such
section or if `global` is set. -/
def firstKeyAround? (c : Collection K T) (start : Option K) (global : Bool) : Option K :=
  match start.bind c.enclosingGroup?, global with
  | some n, false => n.firstChild
  | _, _ => c.firstKey?

/-- The last key of the section around `start`, at any depth, or of the whole collection if there is
no such section or if `global` is set. -/
def lastKeyAround? (c : Collection K T) (start : Option K) (global : Bool) : Option K :=
  match start.bind c.enclosingGroup?, global with
  | some n, false => (c.lastDescendant? n).map (·.key)
  | _, _ => c.lastKey?

end Listbox.Collection
