import Listbox.Proofs.Flattening
import Listbox.Proofs.Recovery
import Mathlib.Logic.ExistsUnique

set_option autoImplicit false

/-! # Reading order follows the links

A collection knows its order twice: by the positions of its rows, which the traversal reads, and by
the links of its rows, which say what is below and beside each one. The two agree. After a row comes
its first child, or else the next sibling of the nearest row at or above it that has one; before it
comes the end of the tree of its previous sibling, or else its parent.

Both facts are shown for the rows of a forest wherever a collection hosts it, by induction on the
forest: one needs to know which key stands after the forest, the other which stands before it
(`Follows`). `traversal_follows_links` adds what this means for walking over all rows. -/

universe u v

namespace Listbox.Collection

variable {K : Type u} {T : Type v}

/-- The nearest next sibling is that of the first row, or else the nearest of the others. -/
theorem findSome?_next_cons (n : Node K T) (up : List (Node K T)) :
    (n :: up).findSome? (·.next) = n.next.or (up.findSome? (·.next)) := by
  rw [List.findSome?_cons]
  cases n.next with
  | none => rfl
  | some k => rfl

variable [DecidableEq K] [Hashable K]

/-! ## Keys at positions -/

theorem map_key_at? (c : Collection K T) (i : Nat) : (c.at? i).map (·.key) = c.keys[i]? := by
  rw [at?_eq, keys, List.getElem?_map]

theorem keys_getElem?_index {c : Collection K T} {n : Node K T} (h : n ∈ c.toList) :
    c.keys[n.index]? = some n.key := by
  obtain ⟨i, hi⟩ := List.mem_iff_getElem?.1 h
  rw [← at?_eq] at hi
  rw [index_at? hi, ← map_key_at?, hi]
  rfl

/-- The key that stands before a position. -/
def keyLeftOf? (c : Collection K T) : Nat → Option K
  | 0 => none
  | i + 1 => c.keys[i]?

theorem keyAfter?_eq (c : Collection K T) (k : K) :
    c.keyAfter? k = (c.position? k).bind fun i => c.keys[i + 1]? := by
  simp only [keyAfter?, map_key_at?]

theorem keyBefore?_eq (c : Collection K T) (k : K) :
    c.keyBefore? k = (c.position? k).bind c.keyLeftOf? := by
  unfold keyBefore?
  congr
  funext i
  cases i with
  | zero => rfl
  | succ i => exact c.map_key_at? i

theorem keyAfter?_of_getElem? {c : Collection K T} {i : Nat} {k : K} (h : c.keys[i]? = some k) :
    c.keyAfter? k = c.keys[i + 1]? := by
  rw [keyAfter?_eq, position?_eq_some_iff.2 h, Option.bind_some]

theorem keyBefore?_of_getElem? {c : Collection K T} {i : Nat} {k : K} (h : c.keys[i]? = some k) :
    c.keyBefore? k = c.keyLeftOf? i := by
  rw [keyBefore?_eq, position?_eq_some_iff.2 h, Option.bind_some]

theorem keyAfter?_eq_some_iff {c : Collection K T} {a b : K} :
    c.keyAfter? a = some b ↔ ∃ i, c.keys[i]? = some a ∧ c.keys[i + 1]? = some b := by
  rw [keyAfter?_eq, Option.bind_eq_some_iff]
  simp only [position?_eq_some_iff]

theorem keyBefore?_eq_some_iff {c : Collection K T} {a b : K} :
    c.keyBefore? b = some a ↔ ∃ i, c.keys[i]? = some a ∧ c.keys[i + 1]? = some b := by
  rw [keyBefore?_eq, Option.bind_eq_some_iff]
  simp only [position?_eq_some_iff]
  constructor
  · intro h
    obtain ⟨i, hb, ha⟩ := h
    cases i with
    | zero => cases ha
    | succ i => exact ⟨i, ha, hb⟩
  · intro h
    obtain ⟨i, ha, hb⟩ := h
    exact ⟨i + 1, hb, ha⟩

/-- **The two steps undo each other.** -/
theorem keyAfter?_eq_some_iff_keyBefore? {c : Collection K T} {a b : K} :
    c.keyAfter? a = some b ↔ c.keyBefore? b = some a := by
  rw [keyAfter?_eq_some_iff, keyBefore?_eq_some_iff]

/-! ## After a row -/

section Hosted

variable {c : Collection K T} {g : Forest (Entry K T)} {level start : Nat} {parent prev : Option K}

/-- What stands at the start of a forest is its first root, unless it has none. -/
theorem keys_getElem?_of_hosts (h : c.Hosts level parent prev start g) :
    c.keys[start]? = (g.first?.map (·.key)).or c.keys[start + g.size]? := by
  cases g with
  | nil => rfl
  | tree e cs rest =>
    rw [← map_key_at?, h.root]
    rfl

/-- **After a row of a forest** comes its first child, or else the next sibling of the nearest row at
or above it that has one, if that is so for what comes after the whole forest. -/
theorem keys_getElem?_index_succ {up : List (Node K T)} (h : c.Hosts level parent prev start g)
    (hend : c.keys[start + g.size]? = up.findSome? (·.next)) :
    ∀ x ∈ (g.placed level parent prev start).lineages up,
      c.keys[x.1.index + 1]? = x.1.firstChild.or ((x.1 :: x.2).findSome? (·.next)) := by
  induction g generalizing level parent prev start up with
  | nil =>
    intro x hx
    cases hx
  | tree e cs rest ihc ihr =>
    have hsize : start + (Forest.tree e cs rest).size = start + 1 + cs.size + rest.size := by
      simp only [Forest.size]
      omega
    rw [hsize] at hend
    let root := Forest.rootNode level parent prev start e cs rest
    -- past the rows below the root comes its next sibling, or else what comes after the forest
    have hpast : c.keys[start + 1 + cs.size]? = (root :: up).findSome? (·.next) := by
      rw [keys_getElem?_of_hosts h.beside, hend, findSome?_next_cons]
      rfl
    intro x hx
    rw [Forest.placed, Forest.lineages, List.mem_cons, List.mem_append] at hx
    rcases hx with rfl | hx | hx
    · change c.keys[start + 1]? = _
      rw [keys_getElem?_of_hosts h.below, hpast]
      rfl
    · exact ihc h.below hpast x hx
    · exact ihr h.beside hend x hx

/-! ## Before a row -/

/-- Last children lead from `k` to `z`, and `z` has none. -/
inductive EndsIn (c : Collection K T) : K → K → Prop where
  | leaf {k : K} {n : Node K T} (hn : c.get? k = some n) (hlast : n.lastChild = none) : EndsIn c k k
  | descend {k k' z : K} {n : Node K T} (hn : c.get? k = some n) (hlast : n.lastChild = some k')
      (hends : EndsIn c k' z) : EndsIn c k z

/-- Last children lead to one end only. -/
theorem EndsIn.unique {c : Collection K T} {k y z : K} (hy : c.EndsIn k y) (hz : c.EndsIn k z) :
    y = z := by
  induction hy with
  | leaf hn hlast =>
    cases hz with
    | leaf => rfl
    | descend hn' hlast' =>
      rw [hn] at hn'
      cases hn'
      rw [hlast] at hlast'
      cases hlast'
  | descend hn hlast _ ih =>
    cases hz with
    | leaf hn' hlast' =>
      rw [hn] at hn'
      cases hn'
      rw [hlast] at hlast'
      cases hlast'
    | descend hn' hlast' hends =>
      rw [hn] at hn'
      cases hn'
      rw [hlast] at hlast'
      cases hlast'
      exact ih hends

/-- The tree of a root ends where the last tree below it does. -/
theorem exists_endsIn_root {e : Entry K T} {cs rest : Forest (Entry K T)}
    (h : c.Hosts level parent prev start (.tree e cs rest))
    (hcs : ∀ k, cs.last?.map (·.key) = some k →
      ∃ z, c.EndsIn k z ∧ c.keys[start + cs.size]? = some z) :
    ∃ z, c.EndsIn e.key z ∧ c.keys[start + cs.size]? = some z := by
  have hroot : c.get? e.key = some (Forest.rootNode level parent prev start e cs rest) :=
    get?_of_at? h.root
  cases hlast : cs.last?.map (·.key) with
  | none =>
    have hnil : cs = .nil := by
      cases cs with
      | nil => rfl
      | tree e' cs' rest' => simp [Forest.last?_tree] at hlast
    subst hnil
    refine ⟨e.key, .leaf hroot rfl, ?_⟩
    change c.keys[start]? = some e.key
    rw [← map_key_at?, h.root]
    rfl
  | some k =>
    obtain ⟨z, hz, hat⟩ := hcs k hlast
    exact ⟨z, .descend hroot hlast hz, hat⟩

/-- The tree of the last root ends where the forest does. -/
theorem exists_endsIn_last (h : c.Hosts level parent prev start g) {j : Nat} {k : K}
    (hj : j + 1 = start + g.size) (hk : g.last?.map (·.key) = some k) :
    ∃ z, c.EndsIn k z ∧ c.keys[j]? = some z := by
  induction g generalizing level parent prev start k with
  | nil => cases hk
  | tree e cs rest ihc ihr =>
    simp only [Forest.size] at hj
    rw [Forest.last?_tree] at hk
    cases hrest : rest.last? with
    | none =>
      have hnil : rest = .nil := by
        cases rest with
        | nil => rfl
        | tree e' cs' rest' => simp [Forest.last?_tree] at hrest
      subst hnil
      cases hk
      have hj' : j = start + cs.size := by
        simp only [Forest.size] at hj
        omega
      subst hj'
      exact exists_endsIn_root h fun k hk => ihc h.below (by omega) hk
    | some e' =>
      rw [hrest] at hk
      exact ihr h.beside (by omega) (by rw [hrest]; exact hk)

/-- A row at position `i` follows what its links say: the tree of its previous sibling ends before
it, and a first child stands right after its parent. -/
structure Follows (c : Collection K T) (i : Nat) (parent prev : Option K) : Prop where
  sibling : ∀ k, prev = some k → ∃ z, c.EndsIn k z ∧ c.keyLeftOf? i = some z
  first : prev = none → c.keyLeftOf? i = parent

/-- **Before a row of a forest** comes what its links say, if that is so for the first root. -/
theorem follows_of_mem_layOut (h : c.Hosts level parent prev start g)
    (hstart : c.Follows start parent prev) :
    ∀ n ∈ g.layOut level parent prev start, c.Follows n.index n.parent n.prev := by
  induction g generalizing level parent prev start with
  | nil =>
    intro n hn
    cases hn
  | tree e cs rest ihc ihr =>
    have hroot : c.keys[start]? = some e.key := by
      rw [← map_key_at?, h.root]
      rfl
    have hends : ∃ z, c.EndsIn e.key z ∧ c.keys[start + cs.size]? = some z :=
      exists_endsIn_root h fun k hk => exists_endsIn_last h.below (by omega) hk
    intro n hn
    rw [Forest.layOut_tree, List.mem_cons, List.mem_append] at hn
    rcases hn with rfl | hn | hn
    · exact hstart
    · refine ihc h.below ⟨?_, fun _ => hroot⟩ n hn
      intro k hk
      cases hk
    · refine ihr h.beside ⟨?_, ?_⟩ n hn
      · intro k hk
        cases hk
        obtain ⟨z, hz, hat⟩ := hends
        refine ⟨z, hz, ?_⟩
        rw [show start + 1 + cs.size = (start + cs.size) + 1 by omega]
        exact hat
      · intro hnone
        cases hnone

end Hosted

/-! ## All rows -/

/-- What stands after and before a row, by its links and those of its relatives. -/
structure FollowsLinks (c : Collection K T) (k : K) (n : Node K T) : Prop where
  after : c.keyAfter? k = n.firstChild.or ((n :: (c.ancestors k).reverse).findSome? (·.next))
  beforeLater : ∀ p, n.prev = some p → ∃ z, c.EndsIn p z ∧ c.keyBefore? k = some z
  beforeFirst : n.prev = none → c.keyBefore? k = n.parent

theorem followsLinks_of_get? {c : Collection K T} {k : K} {n : Node K T} (h : c.get? k = some n) :
    c.FollowsLinks k n := by
  obtain ⟨hmem, rfl⟩ := get?_eq_some_iff.1 h
  obtain ⟨f, hf⟩ := c.exists_ofForest
  have hhosts := hosts_ofForest hf
  have hat := keys_getElem?_index hmem
  obtain ⟨up, hup⟩ := exists_mem_lineages hmem
  have hafter : c.keys[n.index + 1]? = n.firstChild.or ((n :: up).findSome? (·.next)) := by
    have hend : c.keys[0 + f.size]? = ([] : List (Node K T)).findSome? (·.next) := by
      rw [Nat.zero_add, keys_ofForest hf, ← Forest.length_keys]
      exact List.getElem?_eq_none (Nat.le_refl _)
    have hlineage : (n, up) ∈ (f.placed 0 none none 0).lineages [] := by
      rw [← forest_ofForest hf]
      exact hup
    exact keys_getElem?_index_succ hhosts hend _ hlineage
  have hbefore : c.Follows n.index n.parent n.prev := by
    refine follows_of_mem_layOut hhosts ⟨?_, fun _ => rfl⟩ n ?_
    · intro k hk
      cases hk
    · rw [toList_ofForest hf] at hmem
      exact hmem
  constructor
  case after =>
    rw [keyAfter?_of_getElem? hat, hafter, ancestors_of_mem_lineages hup, List.reverse_reverse]
  case beforeLater =>
    intro p hp
    rw [keyBefore?_of_getElem? hat]
    exact hbefore.sibling p hp
  case beforeFirst =>
    intro hnone
    rw [keyBefore?_of_getElem? hat]
    exact hbefore.first hnone

/-- The key that `i` steps forward lead to from the first one. -/
def visit (c : Collection K T) : Nat → Option K
  | 0 => c.firstKey?
  | i + 1 => (c.visit i).bind c.keyAfter?

theorem visit_eq (c : Collection K T) (i : Nat) : c.visit i = c.keys[i]? := by
  induction i with
  | zero => exact c.map_key_at? 0
  | succ i ih =>
    rw [visit, ih]
    cases h : c.keys[i]? with
    | none =>
      rw [List.getElem?_eq_none_iff] at h
      exact (List.getElem?_eq_none (Nat.le_succ_of_le h)).symm
    | some k => exact keyAfter?_of_getElem? h

theorem lastKey?_eq (c : Collection K T) : c.lastKey? = c.keys[c.size - 1]? := by
  rw [← map_key_at?, lastKey?, Array.back?_eq_getElem?]
  rfl

/-- **Walking forward visits every row once.** -/
theorem existsUnique_visit {c : Collection K T} {k : K} (h : c.contains k) :
    ∃! i, c.visit i = some k := by
  obtain ⟨i, hi⟩ := List.mem_iff_getElem?.1 (contains_iff_mem_keys.1 h)
  refine ⟨i, (c.visit_eq i).trans hi, ?_⟩
  intro j hj
  rw [visit_eq] at hj
  -- no key stands at two positions
  obtain ⟨hlt, -⟩ := List.getElem?_eq_some_iff.1 hj
  exact (List.getElem?_inj hlt c.nodup_keys).1 (hj.trans hi.symm)

/-- **Reading order follows the links.** For every row of a collection, the steps forward and
backward lead where its links and those of its relatives say; they undo each other; and walking
forward from the first key visits every key once, ends after as many as there are, and the last of
them is the last key. -/
theorem traversal_follows_links (c : Collection K T) :
    (∀ k n, c.get? k = some n → c.FollowsLinks k n) ∧
    (∀ a b, c.keyAfter? a = some b ↔ c.keyBefore? b = some a) ∧
    (∀ k, c.contains k → ∃! i, c.visit i = some k) ∧
    (∀ i, c.visit i = none ↔ c.size ≤ i) ∧
    c.visit (c.size - 1) = c.lastKey? := by
  refine ⟨fun k n h => followsLinks_of_get? h, fun a b => keyAfter?_eq_some_iff_keyBefore?,
    fun k h => existsUnique_visit h, ?_, ?_⟩
  · intro i
    rw [visit_eq, List.getElem?_eq_none_iff, length_keys]
  · rw [visit_eq, lastKey?_eq]

/-- A section over a row over another row, and a row after it. -/
def stairs : Forest (Entry Nat Unit) :=
  .tree (.group 1 "fruit") (.tree (.item 2 "apple" ()) (.leaf (.item 3 "russet" ())) .nil)
    (.leaf (.item 4 "bread" ()))

/-- Before the last row stands the end of the tree of the section, two levels down. -/
theorem traversal_follows_links_stairs :
    ∃ c n, ofForest stairs = .ok c ∧ c.get? 4 = some n ∧ n.prev = some 1 ∧ c.EndsIn 1 3 ∧
      c.keyBefore? 4 = some 3 ∧ c.keyAfter? 3 = some 4 := by
  obtain ⟨c, hc⟩ := exists_ofForest_ok_iff.2 (show stairs.keys.Nodup by decide)
  obtain ⟨n₁, hn₁, hplace₁⟩ := exists_get?_of_address hc (p := []) (j := 0) rfl
  obtain ⟨n₂, hn₂, hplace₂⟩ := exists_get?_of_address hc (p := [0]) (j := 0) rfl
  obtain ⟨n₃, hn₃, hplace₃⟩ := exists_get?_of_address hc (p := [0, 0]) (j := 0) rfl
  obtain ⟨n₄, hn₄, hplace₄⟩ := exists_get?_of_address hc (p := []) (j := 1) rfl
  have hends : c.EndsIn 1 3 :=
    .descend hn₁ hplace₁.lastChild (.descend hn₂ hplace₂.lastChild (.leaf hn₃ hplace₃.lastChild))
  obtain ⟨hlinks, hundo, -⟩ := traversal_follows_links c
  obtain ⟨z, hz, hbefore⟩ := (hlinks 4 n₄ hn₄).beforeLater 1 hplace₄.prev
  rw [hz.unique hends] at hbefore
  exact ⟨c, n₄, hc, hn₄, hplace₄.prev, hends, hbefore, (hundo 3 4).2 hbefore⟩

end Listbox.Collection
