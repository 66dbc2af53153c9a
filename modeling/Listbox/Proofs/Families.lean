import Listbox.Collection.Search
import Listbox.Proofs.Flattening
import Listbox.Proofs.Trails

set_option autoImplicit false

/-! # Children, roots and ancestors

Where a collection hosts a forest, each row stands right before the forest of the rows below it
(`Heads`): its links name the ends of that forest, its children are the roots of that forest, and what
is below it at any depth are the rows of that forest and no others. So the rows below a row are a
stretch of the reading order, which decides what walking along siblings can reach.

`links_form_families` states what the walks over the hierarchy find, and that they end: children,
roots, ancestors, and the visit of everything by roots and children. -/

universe u v

namespace Listbox

namespace Forest

/-! ## Positions in a forest -/

/-- What is above a forest is above all of it. -/
theorem subset_of_mem_lineages {α : Type u} {f : Forest α} {up : List α} :
    ∀ x ∈ f.lineages up, up ⊆ x.2 := by
  intro x hx
  have happend := f.lineages_append [] up
  rw [List.nil_append] at happend
  rw [happend, List.mem_map] at hx
  obtain ⟨y, -, rfl⟩ := hx
  exact List.subset_append_right ..

variable {K : Type u} {T : Type v} {f cs rest : Forest (Entry K T)} {e : Entry K T}
variable {level start : Nat} {parent prev : Option K} {n s : Node K T}

theorem index_of_mem_layOut (hn : n ∈ f.layOut level parent prev start) :
    start ≤ n.index ∧ n.index < start + f.size := by
  have hindex : n.index ∈ (f.layOut level parent prev start).map (·.index) :=
    List.mem_map_of_mem hn
  rw [map_index_layOut] at hindex
  exact List.mem_range'_1.1 hindex

/-- What is above a row of a forest is above the whole forest, or stands in it before the row. -/
theorem index_of_mem_lineages {up : List (Node K T)} :
    ∀ x ∈ (f.placed level parent prev start).lineages up,
      (start ≤ x.1.index ∧ x.1.index < start + f.size) ∧
        ∀ a ∈ x.2, a ∈ up ∨ start ≤ a.index ∧ a.index < x.1.index := by
  induction f generalizing level parent prev start up with
  | nil =>
    intro x hx
    cases hx
  | tree e cs rest ihc ihr =>
    have hsize : (tree e cs rest).size = 1 + cs.size + rest.size := rfl
    have hroot : (rootNode level parent prev start e cs rest).index = start := rfl
    intro x hx
    rw [placed, lineages, List.mem_cons, List.mem_append] at hx
    rcases hx with rfl | hx | hx
    · exact ⟨by dsimp only; omega, fun a ha => .inl ha⟩
    · obtain ⟨hindex, habove⟩ := ihc x hx
      refine ⟨by omega, fun a ha => ?_⟩
      rcases habove a ha with hup | hbetween
      · rcases List.mem_cons.1 hup with rfl | hup
        · exact .inr (by omega)
        · exact .inl hup
      · exact .inr (by omega)
    · obtain ⟨hindex, habove⟩ := ihr x hx
      refine ⟨by omega, fun a ha => ?_⟩
      rcases habove a ha with hup | hbetween
      · exact .inl hup
      · exact .inr (by omega)

/-! ## What a row is above -/

/-- As far as these lineages tell, `s` is above the `m` rows right behind it and above no others. -/
def Spans (s : Node K T) (m : Nat) (lineages : List (Node K T × List (Node K T))) : Prop :=
  ∀ x ∈ lineages, s ∈ x.2 ↔ s.index < x.1.index ∧ x.1.index ≤ s.index + m

/-- A row is above nothing in a forest that it does not stand in and that ends before the row or
starts after its last descendant. -/
theorem spans_of_apart {up : List (Node K T)} {low m : Nat} (hup : ∀ a ∈ up, a.index < low)
    (hlow : low ≤ s.index) (hapart : start + f.size ≤ s.index ∨ s.index + m < start) :
    Spans s m ((f.placed level parent prev start).lineages up) := by
  intro x hx
  obtain ⟨hindex, habove⟩ := index_of_mem_lineages x hx
  refine iff_of_false (fun hs => ?_) (by omega)
  rcases habove s hs with hs | hs
  · have := hup s hs
    omega
  · omega

/-- A row of the first tree or of a later one is not above the root of the first. -/
theorem spans_tree {up : List (Node K T)} {m : Nat} (hup : ∀ a ∈ up, a.index < start)
    (hs : start ≤ s.index)
    (hbelow : Spans s m ((cs.placed (level + 1) (some e.key) none (start + 1)).lineages
      (rootNode level parent prev start e cs rest :: up)))
    (hbeside : Spans s m
      ((rest.placed level parent (some e.key) (start + 1 + cs.size)).lineages up)) :
    Spans s m (((tree e cs rest).placed level parent prev start).lineages up) := by
  intro x hx
  rw [placed, lineages, List.mem_cons, List.mem_append] at hx
  rcases hx with rfl | hx | hx
  · have hroot : (rootNode level parent prev start e cs rest).index = start := rfl
    refine iff_of_false (fun hmem => ?_) (by dsimp only; omega)
    have := hup s hmem
    omega
  · exact hbelow x hx
  · exact hbeside x hx

end Forest

namespace Collection

variable {K : Type u} {T : Type v} [DecidableEq K] [Hashable K]
variable {c : Collection K T} {g cs rest : Forest (Entry K T)} {e : Entry K T} {n s d : Node K T}
variable {level start : Nat} {parent prev : Option K} {k : K}

/-! ## Rows of a hosted forest -/

theorem Hosts.mem_toList (h : c.Hosts level parent prev start g)
    (hn : n ∈ g.layOut level parent prev start) : n ∈ c.toList :=
  List.mem_of_mem_drop (h.subset hn)

/-- Rows that can only stand where a forest is hosted are found by looking through its rows. -/
theorem Hosts.filter_toList (h : c.Hosts level parent prev start g) {p : Node K T → Bool}
    (hp : ∀ n ∈ c.toList, p n = true → start ≤ n.index ∧ n.index < start + g.size) :
    c.toList.filter p = (g.layOut level parent prev start).filter p := by
  obtain ⟨after, hafter⟩ := h
  have hlast : after = c.toList.drop (start + g.size) := by
    rw [← List.drop_drop, ← hafter, List.drop_left' (Forest.length_layOut ..)]
  have hbefore : (c.toList.take start).filter p = [] := by
    refine List.filter_eq_nil_iff.2 fun n hn hpn => ?_
    obtain ⟨hn, hlt⟩ := mem_take_iff.1 hn
    have := hp n hn hpn
    omega
  have hbehind : after.filter p = [] := by
    rw [hlast]
    refine List.filter_eq_nil_iff.2 fun n hn hpn => ?_
    obtain ⟨hn, hle⟩ := mem_drop_iff.1 hn
    have := hp n hn hpn
    omega
  calc c.toList.filter p
    _ = (c.toList.take start ++ c.toList.drop start).filter p := by rw [List.take_append_drop]
    _ = (g.layOut level parent prev start ++ after).filter p := by
      rw [List.filter_append, hbefore, List.nil_append, hafter]
    _ = (g.layOut level parent prev start).filter p := by
      rw [List.filter_append, hbehind, List.append_nil]

/-! ## A row over its forest -/

/-- The row `s` stands right before the forest `cs` of the rows below it, and names its ends. -/
structure Heads (c : Collection K T) (s : Node K T) (cs : Forest (Entry K T)) : Prop where
  found : c.get? s.key = some s
  firstChild : s.firstChild = cs.first?.map (·.key)
  lastChild : s.lastChild = cs.last?.map (·.key)
  below : c.Hosts (s.level + 1) (some s.key) none (s.index + 1) cs

theorem Hosts.heads (h : c.Hosts level parent prev start (.tree e cs rest)) :
    c.Heads (Forest.rootNode level parent prev start e cs rest) cs where
  found := get?_of_at? h.root
  firstChild := rfl
  lastChild := rfl
  below := h.below

/-- Walking along the siblings from a row is reading the roots from there. -/
theorem roots_forestAt (c : Collection K T) (i : Nat) :
    (c.forestAt i).roots = c.along (·.next) i := by
  unfold along
  cases hn : c.at? i with
  | none =>
    rw [forestAt]
    simp only [hn]
    rfl
  | some n =>
    simp only [forestAt_of_at? hn, Forest.roots, forestFrom]
    cases c.later? i n.next with
    | none => rfl
    | some j => exact congrArg (n :: ·) (roots_forestAt c j)
  termination_by c.size - i

theorem roots_eq_roots_forest (c : Collection K T) : c.roots = c.forest.roots :=
  (c.roots_forestAt 0).symm

/-- The children of a row are the roots of the forest below it. -/
theorem Heads.children (h : c.Heads s cs) :
    c.children s.key = (cs.placed (s.level + 1) (some s.key) none (s.index + 1)).roots := by
  unfold Collection.children
  rw [h.found, Option.bind_some, h.firstChild]
  cases hcs : cs with
  | nil => rfl
  | tree e cs' rest =>
    have hbelow := h.below
    rw [hcs] at hbelow
    have hfirst : c.position? e.key = some (s.index + 1) := position?_of_at? hbelow.root
    simp only [Forest.first?, Option.map_some, Option.bind_some, hfirst]
    rw [← roots_forestAt, forestAt_of_hosts (by simp) hbelow]

/-- A row does not stand below itself. -/
theorem Heads.key_notMem (h : c.Heads s cs) : s.key ∉ cs.keys := by
  intro hmem
  rw [← Forest.map_key_layOut cs (s.level + 1) (some s.key) none (s.index + 1)] at hmem
  obtain ⟨n, hn, hkey⟩ := List.mem_map.1 hmem
  obtain rfl : n = s :=
    eq_of_key_eq (h.below.mem_toList hn) (get?_eq_some_iff.1 h.found).1 hkey
  have := Forest.index_of_mem_layOut hn
  omega

/-! ## What is below a row -/

/-- **A row is above what stands right behind it.** In a hosted forest each row heads the forest of
the rows that it is above. -/
theorem exists_heads_of_mem_layOut {up : List (Node K T)} (h : c.Hosts level parent prev start g)
    (hup : ∀ a ∈ up, a.index < start) :
    ∀ s ∈ g.layOut level parent prev start, ∃ below, c.Heads s below ∧
      s.index + below.size < start + g.size ∧
      Forest.Spans s below.size ((g.placed level parent prev start).lineages up) := by
  induction g generalizing level parent prev start up with
  | nil =>
    intro s hs
    cases hs
  | tree e cs rest ihc ihr =>
    have hsize : (Forest.tree e cs rest).size = 1 + cs.size + rest.size := rfl
    have hroot : (Forest.rootNode level parent prev start e cs rest).index = start := rfl
    have hupBelow : ∀ a ∈ Forest.rootNode level parent prev start e cs rest :: up,
        a.index < start + 1 := by
      intro a ha
      rcases List.mem_cons.1 ha with rfl | ha
      · omega
      · exact Nat.lt_succ_of_lt (hup a ha)
    intro s hs
    rw [Forest.layOut_tree, List.mem_cons, List.mem_append] at hs
    -- in each case `s` is apart from one of the two forests, and what is said of the other one is
    -- that `s` is above all of it, or the induction hypothesis
    rcases hs with rfl | hs | hs
    · refine ⟨cs, h.heads, by omega, Forest.spans_tree hup (Nat.le_refl start) ?_ ?_⟩
      · intro x hx
        obtain ⟨hindex, -⟩ := Forest.index_of_mem_lineages x hx
        exact iff_of_true (Forest.subset_of_mem_lineages x hx List.mem_cons_self) (by omega)
      · exact Forest.spans_of_apart hup (Nat.le_refl start) (.inr (by omega))
    · obtain ⟨below, hheads, hfits, hspans⟩ := ihc h.below hupBelow s hs
      have hindex := Forest.index_of_mem_layOut hs
      refine ⟨below, hheads, by omega, Forest.spans_tree hup (by omega) hspans ?_⟩
      exact Forest.spans_of_apart hup (by omega) (.inr (by omega))
    · have hupBeside : ∀ a ∈ up, a.index < start + 1 + cs.size := fun a ha => by
        have := hup a ha
        omega
      obtain ⟨below, hheads, hfits, hspans⟩ := ihr h.beside hupBeside s hs
      have hindex := Forest.index_of_mem_layOut hs
      refine ⟨below, hheads, by omega, Forest.spans_tree hup (by omega) ?_ hspans⟩
      exact Forest.spans_of_apart hupBelow (by omega) (.inl (by omega))

/-- **Every row heads the forest of the rows below it.** -/
theorem exists_heads (hs : c.get? k = some s) : ∃ cs, c.Heads s cs ∧
    ∀ d ∈ c.toList, s ∈ c.ancestors d.key ↔ s.index < d.index ∧ d.index ≤ s.index + cs.size := by
  obtain ⟨f, hf⟩ := c.exists_ofForest
  obtain ⟨hmem, -⟩ := get?_eq_some_iff.1 hs
  rw [toList_ofForest hf] at hmem
  obtain ⟨cs, hheads, -, hspans⟩ := exists_heads_of_mem_layOut (hosts_ofForest hf)
    (List.forall_mem_nil fun a : Node K T => a.index < 0) s hmem
  rw [← forest_ofForest hf] at hspans
  refine ⟨cs, hheads, fun d hd => ?_⟩
  obtain ⟨up, hup⟩ := exists_mem_lineages hd
  rw [ancestors_of_mem_lineages hup, List.mem_reverse]
  exact hspans (d, up) hup

/-! ## Ancestors -/

theorem mem_toList_of_follow {link : Node K T → Option K} (h : c.follow link n = some s) :
    s ∈ c.toList := by
  obtain ⟨k, -, hs⟩ := Option.bind_eq_some_iff.1 h
  exact (get?_eq_some_iff.1 hs).1

theorem parent_of_follow (h : c.follow (·.parent) n = some s) : n.parent = some s.key := by
  obtain ⟨k, hparent, hs⟩ := Option.bind_eq_some_iff.1 h
  rw [(get?_eq_some_iff.1 hs).2]
  exact hparent

/-- A row has a parent if and only if the link to it leads somewhere. -/
theorem follow_parent_eq_none_iff (hn : n ∈ c.toList) :
    c.follow (·.parent) n = none ↔ n.parent = none := by
  cases hparent : n.parent with
  | none => simp [follow, hparent]
  | some k =>
    obtain ⟨u, hu, -⟩ := (linked_of_mem hn).parent k hparent
    simp [follow, hparent, hu]

/-- Following the parents from a row takes as many steps as the row is deep. -/
theorem length_of_trail {first : Option (Node K T)} {ns : List (Node K T)}
    (h : Trail (c.follow (·.parent)) first ns) (hn : n ∈ c.toList)
    (hfirst : c.follow (·.parent) n = first) : ns.length = n.level := by
  induction h generalizing n with
  | stop => exact ((linked_of_mem hn).root ((follow_parent_eq_none_iff hn).1 hfirst)).symm
  | @go u us _ ih =>
    obtain ⟨u', hu', -, hlevel⟩ := (linked_of_mem hn).parent u.key (parent_of_follow hfirst)
    obtain rfl : u' = u := by
      obtain ⟨hmem, hkey⟩ := get?_eq_some_iff.1 hu'
      exact eq_of_key_eq hmem (mem_toList_of_follow hfirst) hkey
    rw [List.length_cons, hlevel, ih (mem_toList_of_follow hfirst) rfl]

/-- What the rows `up` have to be in order to be the ancestors of `n`, the outermost first. -/
structure Lineage (c : Collection K T) (n : Node K T) (up : List (Node K T)) : Prop where
  /-- Following the parents from `n` visits these, the nearest first, and then stops. -/
  walk : ∀ ns, Trail (c.follow (·.parent)) (c.follow (·.parent) n) ns ↔ ns = up.reverse
  length : up.length = n.level
  rows : ∀ a ∈ up, a ∈ c.toList
  outermost : ∀ a, up.head? = some a → a.parent = none
  chain : up.IsChain fun a b => b.parent = some a.key
  nearest : up.getLast? = c.parent? n.key

theorem lineage_ancestors (h : c.get? k = some n) : c.Lineage n (c.ancestors k) := by
  obtain ⟨hn, hkey⟩ := get?_eq_some_iff.1 h
  have hparent : c.parent? k = c.follow (·.parent) n := by
    rw [parent?, h]
    rfl
  have hwalk := trail_ancestors c k
  rw [hparent] at hwalk
  have hrows : ∀ a ∈ c.ancestors k, a ∈ c.toList := fun a ha =>
    hwalk.forall_mem (fun _ => mem_toList_of_follow) (fun _ _ => mem_toList_of_follow) a
      (List.mem_reverse.2 ha)
  constructor
  case walk => exact fun ns => hwalk.iff_eq
  case length =>
    rw [← List.length_reverse]
    exact length_of_trail hwalk hn rfl
  case rows => exact hrows
  case outermost =>
    intro a ha
    have hstop := hwalk.step_getLast? a (by rwa [List.getLast?_reverse])
    exact (follow_parent_eq_none_iff (hrows a (List.mem_of_mem_head? ha))).1 hstop
  case chain => exact (List.isChain_reverse.1 hwalk.isChain).imp fun a b => parent_of_follow
  case nearest =>
    rw [hkey, hparent, ← hwalk.head?_eq, List.head?_reverse]

/-- The parent of a row is one of its ancestors. -/
theorem mem_ancestors_of_parent (hn : n ∈ c.toList) (h : n.parent = some s.key)
    (hs : c.get? s.key = some s) : s ∈ c.ancestors n.key := by
  have hlast := (lineage_ancestors (get?_eq_some_iff.2 ⟨hn, rfl⟩)).nearest
  rw [parent?, get?_eq_some_iff.2 ⟨hn, rfl⟩, Option.bind_some, h, Option.bind_some, hs] at hlast
  exact List.mem_of_getLast? hlast

/-! ## Children and roots -/

theorem children_eq_nil (h : c.contains k = false) : c.children k = [] := by
  rw [children, get?, position?_eq_none h]
  rfl

theorem ancestors_eq_nil (h : c.contains k = false) : c.ancestors k = [] := by
  rw [ancestors, position?_eq_none h]

/-- **Children** are the rows that name the key as their parent. -/
theorem children_eq_filter (c : Collection K T) (k : K) :
    c.children k = c.toList.filter fun n => decide (n.parent = some k) := by
  cases hs : c.get? k with
  | none =>
    have hunknown : c.contains k = false := by rw [contains_eq_isSome_get?, hs, Option.isSome_none]
    rw [children_eq_nil hunknown, eq_comm]
    refine List.filter_eq_nil_iff.2 fun n hn hparent => ?_
    obtain ⟨u, hu, -⟩ := (linked_of_mem hn).parent k (of_decide_eq_true hparent)
    rw [hs] at hu
    cases hu
  | some s =>
    obtain rfl := (get?_eq_some_iff.1 hs).2
    obtain ⟨cs, hheads, hspans⟩ := exists_heads hs
    -- a row that names `s` is below it, so it stands in the stretch behind `s`
    have hinside : ∀ n ∈ c.toList, decide (n.parent = some s.key) = true →
        s.index + 1 ≤ n.index ∧ n.index < s.index + 1 + cs.size := by
      intro n hn hparent
      have := (hspans n hn).1 (mem_ancestors_of_parent hn (of_decide_eq_true hparent) hs)
      omega
    rw [hheads.children, hheads.below.filter_toList hinside]
    refine Forest.roots_placed cs (s.level + 1) none (s.index + 1) fun k' hk' hsame => ?_
    cases hsame
    exact hheads.key_notMem hk'

/-- What the rows `ns` have to be in order to be the children of a key. -/
structure Brood (c : Collection K T) (k : K) (ns : List (Node K T)) : Prop where
  /-- Following the siblings from the first child visits these, and then stops. -/
  walk : ∀ ms,
    Trail (c.follow (·.next)) ((c.get? k).bind (c.follow (·.firstChild))) ms ↔ ms = ns
  rows : ∀ n, n ∈ ns ↔ n ∈ c.toList ∧ n.parent = some k
  ordered : ns.Pairwise fun a b => a.index < b.index

theorem brood_children (c : Collection K T) (k : K) : c.Brood k (c.children k) := by
  constructor
  case walk => exact fun ms => (trail_children c k).iff_eq
  case rows =>
    intro n
    rw [children_eq_filter, List.mem_filter, decide_eq_true_iff]
  case ordered =>
    rw [children_eq_filter]
    exact c.pairwise_index_toList.filter _

/-! ## Visiting everything -/

/-- Visiting the rows `ns` one after the other, each before its children, meets these keys. -/
inductive Tour (c : Collection K T) : List (Node K T) → List K → Prop where
  | nil : Tour c [] []
  | cons {n : Node K T} {ns : List (Node K T)} {below beside : List K}
      (hbelow : Tour c (c.children n.key) below) (hbeside : Tour c ns beside) :
      Tour c (n :: ns) (n.key :: (below ++ beside))

theorem Tour.unique {ns : List (Node K T)} {ks ks' : List K} (h : c.Tour ns ks)
    (h' : c.Tour ns ks') : ks = ks' := by
  induction h generalizing ks' with
  | nil =>
    cases h'
    rfl
  | cons _ _ ihc ihr =>
    cases h' with
    | cons hbelow hbeside => rw [ihc hbelow, ihr hbeside]

/-- Visiting a hosted forest by roots and children meets its keys in reading order. -/
theorem tour_of_hosts (h : c.Hosts level parent prev start g) :
    c.Tour (g.placed level parent prev start).roots g.keys := by
  induction g generalizing level parent prev start with
  | nil => exact .nil
  | tree e cs rest ihc ihr =>
    rw [Forest.keys_tree]
    refine .cons ?_ (ihr h.beside)
    rw [h.heads.children]
    exact ihc h.below

theorem tour_roots (c : Collection K T) : c.Tour c.roots c.keys := by
  obtain ⟨f, hf⟩ := c.exists_ofForest
  rw [roots_eq_roots_forest, forest_ofForest hf, keys_ofForest hf]
  exact tour_of_hosts (hosts_ofForest hf)

/-- **The links form families.** The children of a key are what following the siblings visits, and
the rows that name it as their parent, in order; an unknown key has no relatives. The roots are what
following the siblings from the first row visits, and what looking through all rows finds without a
parent. The ancestors of a row are as many as it is deep, from a root down to its parent, each the
parent of the next. Visiting the roots and the children of all that is visited meets every key once,
in reading order. -/
theorem links_form_families (c : Collection K T) :
    (∀ k, c.Brood k (c.children k)) ∧
    (∀ k, c.contains k = false → c.children k = [] ∧ c.ancestors k = []) ∧
    (∀ ns, Trail (c.follow (·.next)) (c.at? 0) ns ↔ ns = c.roots) ∧
    c.roots = c.toList.filter (·.parent.isNone) ∧
    (∀ k n, c.get? k = some n → c.Lineage n (c.ancestors k)) ∧
    (∀ ks, c.Tour c.roots ks ↔ ks = c.keys) ∧
    c.keys.Nodup := by
  refine ⟨c.brood_children, fun k hk => ⟨children_eq_nil hk, ancestors_eq_nil hk⟩,
    fun ns => c.trail_roots.iff_eq, ?_, fun k n h => lineage_ancestors h,
    fun ks => ⟨fun h => h.unique c.tour_roots, ?_⟩, c.nodup_keys⟩
  · rw [roots_eq_roots_forest, roots_forest]
  · intro h
    rw [h]
    exact c.tour_roots

/-- The second row of the section has the section as its only ancestor, and a key that no row has
names nothing. -/
theorem links_form_families_nested :
    ∃ c n, ofForest nested = .ok c ∧ c.get? 3 = some n ∧ c.Lineage n (c.ancestors 3) ∧
      (c.ancestors 3).length = 1 ∧ c.contains 5 = false ∧ c.children 5 = [] := by
  obtain ⟨c, hc⟩ := exists_ofForest_ok_iff.2 (show nested.keys.Nodup by decide)
  obtain ⟨n, hn, hplace⟩ := exists_get?_of_address hc (p := [0]) (j := 1) rfl
  obtain ⟨-, hunknown, -, -, hlineage, -⟩ := links_form_families c
  have hfive : c.contains 5 = false := by
    rw [← Bool.not_eq_true, contains_iff_mem_keys, keys_ofForest hc]
    decide
  refine ⟨c, n, hc, hn, hlineage 3 n hn, ?_, hfive, (hunknown 5 hfive).1⟩
  rw [(hlineage 3 n hn).length]
  exact hplace.level

end Collection

end Listbox
