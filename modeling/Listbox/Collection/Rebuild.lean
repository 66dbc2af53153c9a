import Listbox.Collection.Hierarchy

set_option autoImplicit false

/-! # Filtered and appended collections

A collection is never edited. To filter it or to append to it, its forest is read back from the
links of the nodes, changed, and laid out again. -/

universe u v w

namespace Listbox.Collection

variable {K : Type u} {T : Type v} [DecidableEq K] [Hashable K]

/-- The tree of the node at `i`, then the trees of the siblings after it. -/
def forestAt (c : Collection K T) (i : Nat) : Forest (Node K T) :=
  match c.at? i with
  | none => .nil
  | some n =>
    .tree n
      (match c.later? i n.firstChild with
        | some j => c.forestAt j
        | none => .nil)
      (match c.later? i n.next with
        | some j => c.forestAt j
        | none => .nil)
  termination_by c.size - i

/-- The hierarchy of the nodes. -/
def forest (c : Collection K T) : Forest (Node K T) := c.forestAt 0

/-- The entries of the nodes that stay when `keep` is asked about every item, after what is below
it, and the state of `keep` after its last question. A section stays if something below it does, and
unless `pruneEmpty` also without. -/
def subforest {σ : Type w} (c : Collection K T) (pruneEmpty : Bool)
    (keep : σ → Node K T → Bool × σ) (s : σ) : Forest (Entry K T) × σ :=
  let pruned := c.forest.prune (·.isItem) pruneEmpty keep s
  (pruned.1.map Node.toEntry, pruned.2)

/-- The collection of the items that `keep` accepts and of the nodes above them, and the state of
`keep` after its last question. -/
def filterWith {σ : Type w} (c : Collection K T) (keep : σ → Node K T → Bool × σ) (s : σ) :
    Collection K T × σ :=
  let kept := c.subforest true keep s
  ((ofForest kept.1).toOption.getD empty, kept.2)

/-- The collection of the items that satisfy `p` and of the nodes above them. -/
def filter (c : Collection K T) (p : Node K T → Bool) : Collection K T :=
  (c.filterWith (fun (s : Unit) n => (p n, s)) ()).1

/-- All entries, sections without rows included. -/
def entries (c : Collection K T) : Forest (Entry K T) :=
  (c.subforest false (fun (s : Unit) _ => (true, s)) ()).1

/-- The collection with further trees after its last one. -/
def append (c : Collection K T) (more : Forest (Entry K T)) :
    Except (BuildError K) (Collection K T) :=
  ofForest (c.entries ++ more)

end Listbox.Collection
