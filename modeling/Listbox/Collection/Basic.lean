import Listbox.Collection.Assembly

set_option autoImplicit false

/-! # Collections

A `Collection` is a forest of entries laid out in reading order, with a table from each key to its
position. It cannot be edited: `Collection.ofForest` makes one, and filtering or appending makes
another. Every collection is what assembling some forest gave, and carries that fact. -/

universe u v

namespace Listbox

/-- The rows of a list in reading order, the position of each key, and how many rows are items. -/
structure Collection (K : Type u) (T : Type v) [DecidableEq K] [Hashable K] extends
    Assembly K T where
  /-- Some forest was assembled to this. -/
  assembled : ∃ forest, Assembly.assemble forest = .ok toAssembly

namespace Collection

variable {K : Type u} {T : Type v} [DecidableEq K] [Hashable K]

/-- The collection of a forest, if its keys are distinct. -/
def ofForest (forest : Forest (Entry K T)) : Except (BuildError K) (Collection K T) :=
  match h : Assembly.assemble forest with
  | .ok a => .ok ⟨a, forest, h⟩
  | .error e => .error e

/-- The collection without rows. -/
def empty : Collection K T := ⟨Assembly.empty, .nil, rfl⟩

instance : Inhabited (Collection K T) := ⟨empty⟩

instance : EmptyCollection (Collection K T) := ⟨empty⟩

/-! ## Reading by position -/

/-- The nodes in reading order. -/
def toList (c : Collection K T) : List (Node K T) := c.nodes.toList

def keys (c : Collection K T) : List K := c.toList.map (·.key)

def size (c : Collection K T) : Nat := c.nodes.size

def isEmpty (c : Collection K T) : Bool := c.nodes.isEmpty

/-- The node at a position. -/
def at? (c : Collection K T) (i : Nat) : Option (Node K T) := c.nodes[i]?

def firstKey? (c : Collection K T) : Option K := (c.at? 0).map (·.key)

def lastKey? (c : Collection K T) : Option K := c.nodes.back?.map (·.key)

/-! ## Reading by key -/

/-- Where the node of a key stands. -/
def position? (c : Collection K T) (k : K) : Option Nat := c.positions[k]?

/-- The node of a key. -/
def get? (c : Collection K T) (k : K) : Option (Node K T) := (c.position? k).bind c.at?

def contains (c : Collection K T) (k : K) : Bool := (c.position? k).isSome

/-- The key that follows in reading order, wherever it stands in the hierarchy. -/
def keyAfter? (c : Collection K T) (k : K) : Option K :=
  (c.position? k).bind fun i => (c.at? (i + 1)).map (·.key)

/-- The key that precedes in reading order. -/
def keyBefore? (c : Collection K T) (k : K) : Option K :=
  (c.position? k).bind fun
    | 0 => none
    | i + 1 => (c.at? i).map (·.key)

/-! ## Searching in reading order -/

/-- The first node from position `i` on that satisfies `p`. -/
def findFrom? (c : Collection K T) (p : Node K T → Bool) (i : Nat) : Option (Node K T) :=
  if h : i < c.nodes.size then
    if p c.nodes[i] then some c.nodes[i] else c.findFrom? p (i + 1)
  else none
  termination_by c.nodes.size - i

/-- The last node before position `i` that satisfies `p`. -/
def findBefore? (c : Collection K T) (p : Node K T → Bool) : Nat → Option (Node K T)
  | 0 => none
  | i + 1 => ((c.at? i).filter p).or (c.findBefore? p i)

/-- All nodes, going round from position `i`: past the end it goes on at the top. -/
def round (c : Collection K T) (i : Nat) : List (Node K T) :=
  (List.range c.size).filterMap fun offset => c.at? ((i + offset) % c.size)

theorem findFrom?_eq_find? (c : Collection K T) (p : Node K T → Bool) (i : Nat) :
    c.findFrom? p i = (c.toList.drop i).find? p := by
  unfold findFrom?
  split
  · next h =>
    have hlist : i < c.toList.length := h
    rw [List.drop_eq_getElem_cons hlist, List.find?_cons]
    change (if p c.nodes[i] then _ else _) = match p c.nodes[i] with | true => _ | false => _
    cases p c.nodes[i] with
    | true => rfl
    | false => exact findFrom?_eq_find? c p (i + 1)
  · next h =>
    have hlist : c.toList.length ≤ i := Nat.le_of_not_lt h
    rw [List.drop_eq_nil_of_le hlist]
    rfl
  termination_by c.nodes.size - i

theorem findBefore?_eq_find? (c : Collection K T) (p : Node K T → Bool) (i : Nat) :
    c.findBefore? p i = (c.toList.take i).reverse.find? p := by
  induction i with
  | zero => rfl
  | succ i ih =>
    rw [findBefore?, ih, List.take_add_one, List.reverse_append, List.find?_append]
    congr 1
    change (c.nodes[i]?).filter p = (c.nodes.toList[i]?).toList.reverse.find? p
    rw [Array.getElem?_toList]
    cases h : c.nodes[i]? with
    | none => rfl
    | some n => cases hp : p n <;> simp [hp]

end Collection

end Listbox
