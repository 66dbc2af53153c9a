import Listbox.Collection.Node
import Std.Data.HashMap

set_option autoImplicit false

/-! # Laying out a forest

A forest of entries becomes a sequence of nodes by walking it in reading order: a parent stands
before its children and a tree before its next sibling. `Forest.layOut` makes the nodes with their
index, depth and links; `numberKeys` records the position of every key on the way, and refuses the
first key that repeats an earlier one. -/

universe u v

namespace Listbox

variable {K : Type u} {T : Type v}

/-! ## The nodes of a forest -/

/-- The nodes of a forest of siblings at depth `level` below `parent`. `prev` is the sibling before
the first tree, and `start` is the position of its root. -/
def Forest.layOut (level : Nat) (parent prev : Option K) (start : Nat) :
    Forest (Entry K T) → List (Node K T)
  | .nil => []
  | .tree e cs rest =>
    { toEntry := e
      index := start
      level
      parent
      prev
      next := rest.first?.map (·.key)
      firstChild := cs.first?.map (·.key)
      lastChild := cs.last?.map (·.key) } ::
      (cs.layOut (level + 1) (some e.key) none (start + 1) ++
        rest.layOut level parent (some e.key) (start + 1 + cs.size))

/-- The nodes of a forest that stands by itself. -/
def Forest.nodes (f : Forest (Entry K T)) : List (Node K T) := f.layOut 0 none none 0

/-- The keys of a forest in reading order. -/
def Forest.keys (f : Forest (Entry K T)) : List K := f.preorder.map (·.key)

@[simp] theorem Forest.length_keys (f : Forest (Entry K T)) : f.keys.length = f.size := by
  rw [keys, List.length_map, length_preorder]

/-- Laying out neither loses nor reorders an entry. -/
theorem Forest.map_toEntry_layOut (f : Forest (Entry K T)) (level : Nat) (parent prev : Option K)
    (start : Nat) : (f.layOut level parent prev start).map Node.toEntry = f.preorder := by
  induction f generalizing level parent prev start with
  | nil => rfl
  | tree e cs rest ihc ihr => simp [layOut, preorder, ihc, ihr]

@[simp] theorem Forest.length_layOut (f : Forest (Entry K T)) (level : Nat)
    (parent prev : Option K) (start : Nat) : (f.layOut level parent prev start).length = f.size := by
  rw [← f.length_preorder, ← f.map_toEntry_layOut level parent prev start, List.length_map]

theorem Forest.map_key_layOut (f : Forest (Entry K T)) (level : Nat) (parent prev : Option K)
    (start : Nat) : (f.layOut level parent prev start).map (·.key) = f.keys := by
  rw [Forest.keys, ← f.map_toEntry_layOut level parent prev start, List.map_map]
  rfl

/-- The index of every node is its position. -/
theorem Forest.map_index_layOut (f : Forest (Entry K T)) (level : Nat) (parent prev : Option K)
    (start : Nat) :
    (f.layOut level parent prev start).map (·.index) = List.range' start f.size := by
  induction f generalizing level parent prev start with
  | nil => rfl
  | tree e cs rest ihc ihr =>
    have hsize : size (.tree e cs rest) = cs.size + rest.size + 1 := by rw [size]; omega
    rw [layOut, List.map_cons, List.map_append, ihc, ihr, hsize, List.range'_succ,
      List.range'_append_1]

/-! ## The positions of the keys -/

/-- Why a forest is no collection. -/
inductive BuildError (K : Type u) where
  /-- The key stands at two places; named is the first that repeats an earlier one. -/
  | duplicateKey (key : K)
  deriving DecidableEq

/-- What a reader is told. -/
def BuildError.message (quote : K → String) : BuildError K → String
  | .duplicateKey key => s!"key {quote key} appears more than once"

/-- What a log is told. -/
def BuildError.describe (quote : K → String) : BuildError K → String
  | .duplicateKey key => s!"CollectionError::DuplicateKey({quote key})"

variable [DecidableEq K] [Hashable K]

/-- The positions of `keys`, counted from `start`, added to those in `seen`. -/
def numberKeys (start : Nat) (seen : Std.HashMap K Nat) :
    List K → Except (BuildError K) (Std.HashMap K Nat)
  | [] => .ok seen
  | k :: ks =>
    if seen.contains k then .error (.duplicateKey k)
    else numberKeys (start + 1) (seen.insert k start) ks

/-- Numbering goes on where it stopped. -/
theorem numberKeys_append (ks ks' : List K) (start : Nat) (seen : Std.HashMap K Nat) :
    numberKeys start seen (ks ++ ks') =
      (numberKeys start seen ks).bind fun seen' => numberKeys (start + ks.length) seen' ks' := by
  induction ks generalizing start seen with
  | nil => rfl
  | cons k ks ih =>
    rw [List.cons_append, numberKeys, numberKeys]
    split
    · rfl
    · rw [ih, List.length_cons, Nat.add_assoc, Nat.add_comm 1]

end Listbox
