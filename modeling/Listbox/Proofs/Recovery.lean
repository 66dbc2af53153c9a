import Listbox.Collection.Lemmas
import Listbox.Collection.Rebuild
import Listbox.Proofs.Pruning

set_option autoImplicit false

/-! # The forest is recovered

A collection keeps no forest, only rows with links. Following first children and next siblings from
the first row gives the forest back that the collection was made of (`entries_ofForest`), whatever
its nesting, sections without rows included.

`Forest.placed` is that forest with every entry replaced by its node, so what the links of a
collection say can be read off it: its rows in reading order are the rows of the collection, its
roots are the rows without a parent, and the trees above a row are its ancestors. -/

universe u v

namespace Listbox

variable {K : Type u} {T : Type v}

namespace Forest

/-! ## A forest of nodes -/

/-- The node of the first tree of a forest, where `layOut` puts it. -/
def rootNode (level : Nat) (parent prev : Option K) (start : Nat) (e : Entry K T)
    (cs rest : Forest (Entry K T)) : Node K T :=
  { toEntry := e
    index := start
    level
    parent
    prev
    next := rest.first?.map (·.key)
    firstChild := cs.first?.map (·.key)
    lastChild := cs.last?.map (·.key) }

/-- The forest with the nodes that `layOut` makes in place of the entries. -/
def placed (level : Nat) (parent prev : Option K) (start : Nat) :
    Forest (Entry K T) → Forest (Node K T)
  | .nil => .nil
  | .tree e cs rest =>
    .tree (rootNode level parent prev start e cs rest)
      (cs.placed (level + 1) (some e.key) none (start + 1))
      (rest.placed level parent (some e.key) (start + 1 + cs.size))

variable {level start : Nat} {parent prev : Option K}

theorem layOut_tree (level : Nat) (parent prev : Option K) (start : Nat) (e : Entry K T)
    (cs rest : Forest (Entry K T)) :
    (tree e cs rest).layOut level parent prev start =
      rootNode level parent prev start e cs rest ::
        (cs.layOut (level + 1) (some e.key) none (start + 1) ++
          rest.layOut level parent (some e.key) (start + 1 + cs.size)) := rfl

@[simp] theorem preorder_placed (f : Forest (Entry K T)) (level : Nat) (parent prev : Option K)
    (start : Nat) :
    (f.placed level parent prev start).preorder = f.layOut level parent prev start := by
  induction f generalizing level parent prev start with
  | nil => rfl
  | tree e cs rest ihc ihr => rw [placed, preorder, ihc, ihr, layOut_tree]

theorem keys_tree (e : Entry K T) (cs rest : Forest (Entry K T)) :
    (tree e cs rest).keys = e.key :: (cs.keys ++ rest.keys) := by
  simp [keys, preorder]

@[simp] theorem map_toEntry_placed (f : Forest (Entry K T)) (level : Nat) (parent prev : Option K)
    (start : Nat) : (f.placed level parent prev start).map Node.toEntry = f := by
  induction f generalizing level parent prev start with
  | nil => rfl
  | tree e cs rest ihc ihr =>
    rw [placed, map, ihc, ihr]
    rfl

/-- A row is below the row that its whole forest is below, or below a row of the forest. -/
theorem parent_of_mem_layOut (f : Forest (Entry K T)) {n : Node K T}
    (hn : n ∈ f.layOut level parent prev start) :
    n.parent = parent ∨ ∃ k ∈ f.keys, n.parent = some k := by
  induction f generalizing level parent prev start with
  | nil => cases hn
  | tree e cs rest ihc ihr =>
    rw [keys_tree]
    rw [layOut_tree, List.mem_cons, List.mem_append] at hn
    rcases hn with rfl | hn | hn
    · exact .inl rfl
    · rcases ihc hn with hroot | ⟨k, hk, hbelow⟩
      · exact .inr ⟨e.key, List.mem_cons_self, hroot⟩
      · exact .inr ⟨k, List.mem_cons_of_mem _ (List.mem_append_left _ hk), hbelow⟩
    · rcases ihr hn with hroot | ⟨k, hk, hbelow⟩
      · exact .inl hroot
      · exact .inr ⟨k, List.mem_cons_of_mem _ (List.mem_append_right _ hk), hbelow⟩

/-- Reading all rows and keeping those directly below what the forest is below gives the roots. -/
theorem roots_placed [DecidableEq K] (f : Forest (Entry K T)) (level : Nat) (prev : Option K) (start : Nat)
    (hparent : ∀ k ∈ f.keys, parent ≠ some k) :
    (f.placed level parent prev start).roots =
      (f.layOut level parent prev start).filter fun n => decide (n.parent = parent) := by
  induction f generalizing prev start with
  | nil => rfl
  | tree e cs rest _ ihr =>
    rw [keys_tree] at hparent
    have hbelow : (cs.layOut (level + 1) (some e.key) none (start + 1)).filter
        (fun n => decide (n.parent = parent)) = [] := by
      refine List.filter_eq_nil_iff.2 fun n hn => ?_
      rw [decide_eq_true_iff]
      rcases parent_of_mem_layOut cs hn with hroot | ⟨k, hk, hroot⟩
      · rw [hroot]
        exact (hparent e.key List.mem_cons_self).symm
      · rw [hroot]
        exact (hparent k (List.mem_cons_of_mem _ (List.mem_append_left _ hk))).symm
    have hbeside := ihr (some e.key) (start + 1 + cs.size) fun k hk =>
      hparent k (List.mem_cons_of_mem _ (List.mem_append_right _ hk))
    rw [placed, roots, hbeside, layOut_tree, List.filter_cons_of_pos (by simp [rootNode]),
      List.filter_append, hbelow, List.nil_append]

end Forest

namespace Collection

variable [DecidableEq K] [Hashable K]
variable {c : Collection K T} {f g : Forest (Entry K T)} {level start i j : Nat}
variable {parent prev : Option K} {n : Node K T}

/-! ## Where the rows of a forest stand -/

/-- From position `start` on, the collection has the rows of `g`, laid out from there. -/
def Hosts (c : Collection K T) (level : Nat) (parent prev : Option K) (start : Nat)
    (g : Forest (Entry K T)) : Prop :=
  g.layOut level parent prev start <+: c.toList.drop start

theorem hosts_ofForest (h : ofForest f = .ok c) : c.Hosts 0 none none 0 f := by
  unfold Hosts
  rw [List.drop_zero, toList_ofForest h]
  exact List.prefix_rfl

section Trees

variable {e : Entry K T} {cs rest : Forest (Entry K T)}

/-- The root of the first tree is the first of the rows. -/
theorem Hosts.root (h : c.Hosts level parent prev start (.tree e cs rest)) :
    c.at? start = some (Forest.rootNode level parent prev start e cs rest) := by
  obtain ⟨after, hafter⟩ := h
  rw [at?_eq, ← Nat.add_zero start, ← List.getElem?_drop, ← hafter, Forest.layOut_tree,
    List.cons_append, List.getElem?_cons_zero, Nat.add_zero]

/-- The rows below the root follow it. -/
theorem Hosts.below (h : c.Hosts level parent prev start (.tree e cs rest)) :
    c.Hosts (level + 1) (some e.key) none (start + 1) cs := by
  obtain ⟨after, hafter⟩ := h
  refine ⟨rest.layOut level parent (some e.key) (start + 1 + cs.size) ++ after, ?_⟩
  rw [← List.drop_drop, ← hafter, Forest.layOut_tree, List.cons_append, List.drop_one,
    List.tail_cons, List.append_assoc]

/-- The trees after the first follow its rows. -/
theorem Hosts.beside (h : c.Hosts level parent prev start (.tree e cs rest)) :
    c.Hosts level parent (some e.key) (start + 1 + cs.size) rest := by
  obtain ⟨after, hafter⟩ := h
  refine ⟨after, ?_⟩
  have hsize : (cs.layOut (level + 1) (some e.key) none (start + 1)).length = cs.size := by simp
  rw [← List.drop_drop, ← List.drop_drop, ← hafter, Forest.layOut_tree, List.cons_append,
    List.drop_one, List.tail_cons, List.append_assoc, List.drop_left' hsize]

end Trees

/-! ## Following the links -/

theorem position?_of_at? (h : c.at? i = some n) : c.position? n.key = some i := by
  rw [position?_eq_some_iff, keys, List.getElem?_map, ← at?_eq, h]
  rfl

theorem get?_of_at? (h : c.at? i = some n) : c.get? n.key = some n := by
  rw [get?, position?_of_at? h]
  exact h

/-- The forest that a link leads to. -/
def forestFrom (c : Collection K T) (i : Nat) (link : Option K) : Forest (Node K T) :=
  match c.later? i link with
  | some j => c.forestAt j
  | none => .nil

theorem forestAt_of_at? (h : c.at? i = some n) :
    c.forestAt i = .tree n (c.forestFrom i n.firstChild) (c.forestFrom i n.next) := by
  rw [forestAt]
  simp only [h]
  rfl

theorem later?_of_at? (h : c.at? j = some n) (hij : i < j) :
    c.later? i (some n.key) = some ⟨j, hij, position?_lt (position?_of_at? h)⟩ := by
  unfold later?
  simp [position?_of_at? h, hij, position?_lt (position?_of_at? h)]

/-- A link to the first tree of a forest leads to that forest. -/
theorem forestFrom_of_hosts (hij : i < j) (hg : c.Hosts level parent prev j g)
    (hforest : g ≠ .nil → c.forestAt j = g.placed level parent prev j) :
    c.forestFrom i (g.first?.map (·.key)) = g.placed level parent prev j := by
  cases g with
  | nil => rfl
  | tree e cs rest =>
    have hlink := later?_of_at? hg.root hij
    change c.later? i (some e.key) = _ at hlink
    unfold forestFrom
    rw [Forest.first?, Option.map_some, hlink]
    exact hforest fun hnil => by cases hnil

/-- **Links lead through the forest.** From the first row of a forest, first children and next
siblings lead to all of it and to nothing else. -/
theorem forestAt_of_hosts (hg : g ≠ .nil) (h : c.Hosts level parent prev start g) :
    c.forestAt start = g.placed level parent prev start := by
  induction g generalizing level parent prev start with
  | nil => exact absurd rfl hg
  | tree e cs rest ihc ihr =>
    have hbelow := forestFrom_of_hosts (Nat.lt_succ_self start) h.below fun hcs => ihc hcs h.below
    have hbeside := forestFrom_of_hosts (i := start) (by omega) h.beside fun hrest =>
      ihr hrest h.beside
    rw [forestAt_of_at? h.root, Forest.placed, ← hbelow, ← hbeside]
    rfl

theorem forest_ofForest (h : ofForest f = .ok c) : c.forest = f.placed 0 none none 0 := by
  have hhosts := hosts_ofForest h
  unfold forest
  by_cases hf : f = .nil
  · subst hf
    have hnone : c.at? 0 = none := by
      rw [at?_eq, toList_ofForest h]
      rfl
    rw [forestAt]
    simp only [hnone]
    rfl
  · exact forestAt_of_hosts hf hhosts

theorem map_toEntry_forest (h : ofForest f = .ok c) : c.forest.map Node.toEntry = f := by
  rw [forest_ofForest h, Forest.map_toEntry_placed]

/-- **Reading back undoes laying out**, and no section is lost because it is empty. -/
theorem entries_ofForest (h : ofForest f = .ok c) : c.entries = f := by
  rw [entries, subforest, Forest.prune_of_accepts (fun _ _ => rfl), map_toEntry_forest h]

/-- The rows of the forest in reading order are the rows of the collection. -/
theorem preorder_forest (c : Collection K T) : c.forest.preorder = c.toList := by
  obtain ⟨f, hf⟩ := c.exists_ofForest
  rw [forest_ofForest hf, Forest.preorder_placed, toList_ofForest hf]
  rfl

/-- The roots are found as well by looking through all rows for those without a parent. -/
theorem roots_forest (c : Collection K T) :
    c.forest.roots = c.toList.filter (·.parent.isNone) := by
  obtain ⟨f, hf⟩ := c.exists_ofForest
  rw [forest_ofForest hf, Forest.roots_placed f 0 none 0 (by simp), toList_ofForest hf]
  refine List.filter_congr fun n _ => ?_
  cases n.parent <;> simp

/-! ## Ancestors -/

/-- Above position `start` stand the rows of `up`, nearest first, and the first of them is the row
with key `parent`. -/
def Under (c : Collection K T) (start : Nat) (parent : Option K) (up : List (Node K T)) : Prop :=
  parent = up.head?.map (·.key) ∧
    ∀ u us, up = u :: us → ∃ j < start, c.at? j = some u ∧ c.above j = us

theorem Under.mono {up : List (Node K T)} (h : c.Under i parent up) (hij : i ≤ j) :
    c.Under j parent up := by
  refine ⟨h.1, fun u us hup => ?_⟩
  obtain ⟨j', hj', hu, hus⟩ := h.2 u us hup
  exact ⟨j', Nat.lt_of_lt_of_le hj' hij, hu, hus⟩

/-- The walk along the parents finds them. -/
theorem Under.above_eq {up : List (Node K T)} (h : c.Under i n.parent up) (hn : c.at? i = some n) :
    c.above i = up := by
  obtain ⟨hparent, hup⟩ := h
  unfold above
  simp only [hn]
  cases up with
  | nil =>
    have hnone : c.earlier? i n.parent = none := by
      rw [hparent]
      rfl
    rw [hnone]
  | cons u us =>
    obtain ⟨j, hj, hu, hus⟩ := hup u us rfl
    have hlink : c.earlier? i n.parent = some ⟨j, hj⟩ := by
      unfold earlier?
      rw [hparent]
      simp [position?_of_at? hu, hj]
    rw [hlink]
    simp only [hu, hus, Option.toList_some, List.singleton_append]

/-- Every row of a forest stands at its index, and the walk along the parents finds what is above
it. -/
theorem above_of_mem_lineages {up : List (Node K T)} (h : c.Hosts level parent prev start g)
    (hup : c.Under start parent up) :
    ∀ x ∈ (g.placed level parent prev start).lineages up,
      c.at? x.1.index = some x.1 ∧ c.above x.1.index = x.2 := by
  induction g generalizing level parent prev start up with
  | nil =>
    intro x hx
    cases hx
  | tree e cs rest ihc ihr =>
    have hroot := h.root
    have habove := hup.above_eq (n := Forest.rootNode level parent prev start e cs rest) hroot
    intro x hx
    rw [Forest.placed, Forest.lineages, List.mem_cons, List.mem_append] at hx
    rcases hx with rfl | hx | hx
    · exact ⟨hroot, habove⟩
    · refine ihc h.below ⟨rfl, ?_⟩ x hx
      rintro u us ⟨⟩
      exact ⟨start, Nat.lt_succ_self start, hroot, habove⟩
    · exact ihr h.beside (hup.mono (by omega)) x hx

/-- **Ancestors.** The ancestors of a row are what is above it in the forest, outermost first. -/
theorem ancestors_of_mem_lineages {up : List (Node K T)} (h : (n, up) ∈ c.forest.lineages []) :
    c.ancestors n.key = up.reverse := by
  obtain ⟨f, hf⟩ := c.exists_ofForest
  rw [forest_ofForest hf] at h
  have hroots : c.Under 0 none [] := ⟨rfl, fun u us hup => by cases hup⟩
  obtain ⟨hat, habove⟩ := above_of_mem_lineages (hosts_ofForest hf) hroots _ h
  unfold ancestors
  simp only [position?_of_at? hat, habove]

theorem mem_toList_of_mem_lineages {up : List (Node K T)} (h : (n, up) ∈ c.forest.lineages []) :
    n ∈ c.toList := by
  rw [← preorder_forest, ← Forest.map_fst_lineages c.forest []]
  exact List.mem_map_of_mem h

theorem exists_mem_lineages (h : n ∈ c.toList) : ∃ up, (n, up) ∈ c.forest.lineages [] := by
  rw [← preorder_forest, ← Forest.map_fst_lineages c.forest [], List.mem_map] at h
  obtain ⟨⟨n, up⟩, hmem, rfl⟩ := h
  exact ⟨up, hmem⟩

/-- A row is spared for its own sake or for that of a row that it is an ancestor of. -/
theorem spares_forest_iff {p : Node K T → Bool} (hn : n ∈ c.toList) :
    c.forest.Spares p n ↔ p n = true ∨ ∃ d ∈ c.toList, p d = true ∧ n ∈ c.ancestors d.key := by
  constructor
  · rintro ⟨d, up, hd, hp, hup⟩
    rcases List.mem_cons.1 hup with rfl | hup
    · exact .inl hp
    · refine .inr ⟨d, mem_toList_of_mem_lineages hd, hp, ?_⟩
      rw [ancestors_of_mem_lineages hd]
      exact List.mem_reverse.2 hup
  · rintro (hp | ⟨d, hd, hp, hup⟩)
    · obtain ⟨up, hlineage⟩ := exists_mem_lineages hn
      exact ⟨n, up, hlineage, hp, List.mem_cons_self⟩
    · obtain ⟨up, hlineage⟩ := exists_mem_lineages hd
      rw [ancestors_of_mem_lineages hlineage, List.mem_reverse] at hup
      exact ⟨d, up, hlineage, hp, List.mem_cons_of_mem d hup⟩

end Collection

end Listbox
