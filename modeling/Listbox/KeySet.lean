import Std.Data.HashSet

set_option autoImplicit false

/-! # Key sets

A `KeySet` is what a list control selects: distinct keys in the order in which they were chosen, and
two keys with a role. The anchor is the fixed end of a range, the current key its moving end; a role
may fall to a key outside the set. That the keys are distinct is part of the type.

Keys can be added and removed one at a time, or many at once with a hash table on the side; the
results are the same. Two sets are equal if they have the same members, whatever their order and
roles. -/

universe u

namespace Listbox

/-- Chosen keys in order, with the two ends of the last range. -/
@[ext]
structure KeySet (K : Type u) where
  items : List K
  /-- No key is chosen twice. -/
  nodup : items.Nodup
  /-- The fixed end of the last range. -/
  anchor : Option K
  /-- The moving end of the last range. -/
  current : Option K
  deriving DecidableEq

namespace KeySet

variable {K : Type u}

/-- No keys, and no roles. -/
def empty : KeySet K := ⟨[], List.nodup_nil, none, none⟩

instance : EmptyCollection (KeySet K) := ⟨empty⟩

instance : Inhabited (KeySet K) := ⟨empty⟩

def isEmpty (s : KeySet K) : Bool := s.items.isEmpty

def size (s : KeySet K) : Nat := s.items.length

/-- One key in both roles. -/
def single (k : K) : KeySet K := ⟨[k], by simp, some k, some k⟩

/-- The same keys with the roles given to `anchor` and `current`. -/
def withRoles (s : KeySet K) (anchor current : Option K) : KeySet K := { s with anchor, current }

/-- Every key that the set mentions: its members, then the anchor, then the current key. -/
def mentioned (s : KeySet K) : List K := s.items ++ s.anchor.toList ++ s.current.toList

/-- The keys that satisfy `p`, in the same order; a role whose key fails `p` lapses. The keys are
tested in the order of `mentioned`. -/
def filter (s : KeySet K) (p : K → Bool) : KeySet K :=
  { items := s.items.filter p
    nodup := s.nodup.filter p
    anchor := s.anchor.filter p
    current := s.current.filter p }

/-! ## One key at a time -/

theorem nodup_append_singleton {xs : List K} (hx : xs.Nodup) {k : K} (hk : k ∉ xs) :
    (xs ++ [k]).Nodup := by
  refine List.nodup_append.2 ⟨hx, by simp, ?_⟩
  intro a ha b hb e
  rw [e, List.mem_singleton.1 hb] at ha
  exact hk ha

section DecidableKeys

variable [DecidableEq K]

def contains (s : KeySet K) (k : K) : Bool := s.items.contains k

/-- Adds a key at the end, unless it is there. -/
def insert (s : KeySet K) (k : K) : KeySet K :=
  if h : k ∈ s.items then s
  else { s with items := s.items ++ [k], nodup := nodup_append_singleton s.nodup h }

/-- Takes a key out. -/
def erase (s : KeySet K) (k : K) : KeySet K :=
  { s with items := s.items.erase k, nodup := s.nodup.erase k }

/-- The distinct keys of a list, in the order of their first occurrence. -/
def ofList (ks : List K) : KeySet K := ks.foldl insert empty

/-- Whether two sets have as many members, and each member of the first is one of the second. -/
def sameKeys (s t : KeySet K) : Bool := s.size == t.size && s.items.all t.contains

end DecidableKeys

/-! ## Many keys at a time -/

section HashedKeys

variable [DecidableEq K] [Hashable K]

/-- The keys of a list that are not in `seen`, each at its first occurrence. -/
def unseen (seen : Std.HashSet K) : List K → List K
  | [] => []
  | k :: ks => if seen.contains k then unseen seen ks else k :: unseen (seen.insert k) ks

/-- A key that was in `seen` or has been taken counts as seen from then on. -/
theorem contains_insert_iff {seen : Std.HashSet K} {xs : List K}
    (h : ∀ k, seen.contains k = true ↔ k ∈ xs) (k k' : K) :
    (seen.insert k).contains k' = true ↔ k' ∈ xs ++ [k] := by
  rw [Std.HashSet.contains_insert, Bool.or_eq_true, beq_iff_eq, List.mem_append, List.mem_singleton]
  exact (or_congr eq_comm (h k')).trans or_comm

theorem nodup_append_unseen {xs : List K} (hx : xs.Nodup) (seen : Std.HashSet K)
    (h : ∀ k, seen.contains k = true ↔ k ∈ xs) (ks : List K) : (xs ++ unseen seen ks).Nodup := by
  induction ks generalizing xs seen with
  | nil => simpa [unseen] using hx
  | cons k ks ih =>
    unfold unseen
    split
    · exact ih hx seen h
    · next hk =>
      have hk' : k ∉ xs := fun hk' => hk ((h k).2 hk')
      rw [List.append_cons]
      exact ih (nodup_append_singleton hx hk') _ (contains_insert_iff h k)

/-- Adds the keys of a list in order. -/
def insertMany (s : KeySet K) (ks : List K) : KeySet K :=
  { s with
    items := s.items ++ unseen (Std.HashSet.ofList s.items) ks
    nodup := nodup_append_unseen s.nodup _ (fun k => by simp) ks }

/-- Takes the keys of a list out. -/
def eraseMany (s : KeySet K) (ks : List K) : KeySet K :=
  let gone := Std.HashSet.ofList ks
  { s with
    items := s.items.filter fun k => !gone.contains k
    nodup := s.nodup.filter _ }

/-- The distinct keys of a list, in the order of their first occurrence. -/
def ofListHashed (ks : List K) : KeySet K := empty.insertMany ks

/-- Whether two sets have as many members, and each member of the second is one of the first. -/
def sameKeysHashed (s t : KeySet K) : Bool :=
  s.size == t.size &&
    let mine := Std.HashSet.ofList s.items
    t.items.all mine.contains

end HashedKeys

end KeySet

end Listbox
