set_option autoImplicit false

/-! # Ordered forests

A list control shows a forest: trees side by side, each a label over the forest of its children.
`Forest` names the first tree of a forest by its label, its children and the trees after it, so a
single recursion visits every node and a single induction reaches it.

`preorder` lists the labels as a reader meets them, parents first; `postorder` lists them children
first. `prune` cuts a forest down to what a predicate keeps, and asks that predicate in postorder. -/

universe u v w

namespace Listbox

/-- An ordered forest: nothing, or a first tree followed by the rest. -/
inductive Forest (α : Type u) where
  /-- The forest of no trees. -/
  | nil
  /-- The tree of `label` over `children`, followed by the trees of `rest`. -/
  | tree (label : α) (children rest : Forest α)
  deriving DecidableEq

namespace Forest

variable {α : Type u} {β : Type v}

instance : Inhabited (Forest α) := ⟨nil⟩

/-- One tree without children. -/
def leaf (a : α) : Forest α := tree a nil nil

/-- The trees of the first forest, then those of the second. -/
def append : Forest α → Forest α → Forest α
  | nil, g => g
  | tree a cs rest, g => tree a cs (rest.append g)

instance : Append (Forest α) := ⟨append⟩

@[simp] theorem tree_append (a : α) (cs rest g : Forest α) :
    tree a cs rest ++ g = tree a cs (rest ++ g) := rfl

@[simp] theorem append_nil (f : Forest α) : f ++ nil = f := by
  induction f with
  | nil => rfl
  | tree a cs rest _ ih => rw [tree_append, ih]

theorem append_assoc (f g h : Forest α) : f ++ g ++ h = f ++ (g ++ h) := by
  induction f with
  | nil => rfl
  | tree a cs rest _ ih => simp only [tree_append, ih]

/-- A forest of single nodes. -/
def ofList (xs : List α) : Forest α := xs.foldr (fun a rest => tree a nil rest) nil

/-- How many nodes a forest holds. -/
def size : Forest α → Nat
  | nil => 0
  | tree _ cs rest => 1 + cs.size + rest.size

/-- Every label, a parent before its children and a tree before the next. -/
def preorder : Forest α → List α
  | nil => []
  | tree a cs rest => a :: (cs.preorder ++ rest.preorder)

/-- Every label, the children before their parent and a tree before the next. -/
def postorder : Forest α → List α
  | nil => []
  | tree a cs rest => cs.postorder ++ a :: rest.postorder

/-- The labels of the top-level trees. -/
def roots : Forest α → List α
  | nil => []
  | tree a _ rest => a :: rest.roots

/-- The label of the first tree. -/
def first? : Forest α → Option α
  | nil => none
  | tree a _ _ => some a

/-- The label of the last tree. -/
def last? (f : Forest α) : Option α := f.roots.getLast?

/-- Whether there is no tree at all. -/
def isEmpty : Forest α → Bool
  | nil => true
  | tree .. => false

/-- The same shape with every label replaced. -/
def map (f : α → β) : Forest α → Forest β
  | nil => nil
  | tree a cs rest => tree (f a) (cs.map f) (rest.map f)

@[simp] theorem length_preorder (f : Forest α) : f.preorder.length = f.size := by
  induction f with
  | nil => rfl
  | tree a cs rest ihc ihr =>
    simp only [preorder, List.length_cons, List.length_append, ihc, ihr, size]
    omega

@[simp] theorem preorder_append (f g : Forest α) :
    (f ++ g).preorder = f.preorder ++ g.preorder := by
  induction f with
  | nil => rfl
  | tree a cs rest _ ih => simp [preorder, ih]

@[simp] theorem preorder_map (h : α → β) (f : Forest α) :
    (f.map h).preorder = f.preorder.map h := by
  induction f with
  | nil => rfl
  | tree a cs rest ihc ihr => simp [map, preorder, ihc, ihr]

/-- The last tree is the first one unless there is a tree after it. -/
theorem last?_tree (a : α) (cs rest : Forest α) :
    (tree a cs rest).last? = some (rest.last?.getD a) := by
  rw [last?, roots, List.getLast?_cons, last?]

/-! ## Pruning

The predicate may remember earlier questions: it takes a state and hands back the next one. A node
whose label is a `leafKind` is asked about after its children, and stays if it is accepted or if
one of its children stayed. Every other node is never asked about: it stays if one of its children
did, and unless `pruneEmpty` also without them. -/

/-- The forest of the nodes that stay, and the predicate's state after its last question. -/
def prune {σ : Type w} (leafKind : α → Bool) (pruneEmpty : Bool) (keep : σ → α → Bool × σ) :
    σ → Forest α → Forest α × σ
  | s, nil => (nil, s)
  | s, tree a cs rest =>
    let below := prune leafKind pruneEmpty keep s cs
    let answer := if leafKind a then keep below.2 a else (!pruneEmpty, below.2)
    let beside := prune leafKind pruneEmpty keep answer.2 rest
    if answer.1 || !below.1.isEmpty then (tree a below.1 beside.1, beside.2) else beside

end Forest

end Listbox
