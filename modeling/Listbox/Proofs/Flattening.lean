import Listbox.Collection.Lemmas

set_option autoImplicit false

/-! # A collection is its forest, flattened

A row of a forest has an address: the numbers of the trees above it, outermost first, and its own
number among its siblings. `Forest.Places` says what the node of the row at an address has to look
like, with all its links read off the forest, and laying out makes such a node for every address.

`ofForest_flattens` puts this together with the table of keys: which forests can be built, which key
is reported for the others, and that what is built holds the rows in reading order, each in its
place and each under its key. -/

universe u v

namespace Listbox

namespace Forest

variable {α : Type u}

/-! ## Addresses -/

/-- The forest below the tree with number `j`. -/
def under : Forest α → Nat → Forest α
  | nil, _ => nil
  | tree _ cs _, 0 => cs
  | tree _ _ rest, j + 1 => rest.under j

/-- The trees that lie below the trees numbered in `p`, outermost first. -/
def siblings : Forest α → List Nat → Forest α
  | f, [] => f
  | f, j :: p => (f.under j).siblings p

theorem siblings_nil (p : List Nat) : (nil : Forest α).siblings p = nil := by
  induction p with
  | nil => rfl
  | cons j p ih => exact ih

/-- Reading order visits every address. -/
theorem exists_address {f : Forest α} {a : α} (h : a ∈ f.preorder) :
    ∃ (p : List Nat) (j : Nat), (f.siblings p).roots[j]? = some a := by
  induction f with
  | nil => cases h
  | tree b cs rest ihc ihr =>
    rw [preorder, List.mem_cons, List.mem_append] at h
    rcases h with rfl | h | h
    · exact ⟨[], 0, rfl⟩
    · obtain ⟨p, j, hj⟩ := ihc h
      exact ⟨0 :: p, j, hj⟩
    · obtain ⟨p, j, hj⟩ := ihr h
      -- the first number of the address counts the trees before, so it grows by one
      cases p with
      | nil => exact ⟨[], j + 1, hj⟩
      | cons i p => exact ⟨(i + 1) :: p, j, hj⟩

end Forest

variable {K : Type u} {T : Type v}

namespace Forest

/-! ## The node at an address -/

/-- The key of the tree directly above the trees at `p`, which for the roots is `parent`. -/
def keyAbove? : Forest (Entry K T) → Option K → List Nat → Option K
  | _, parent, [] => parent
  | f, _, j :: p => (f.under j).keyAbove? (f.roots[j]?.map (·.key)) p

/-- The key of the sibling before the row with number `j` among those at `p`. Nothing is before a
first row, except that `prev` is before the first root. -/
def keyBefore? (f : Forest (Entry K T)) (prev : Option K) (p : List Nat) : Nat → Option K
  | 0 => if p = [] then prev else none
  | j + 1 => (f.siblings p).roots[j]?.map (·.key)

/-- `n` is the node of the row with number `j` among the siblings at `p`. The roots stand at depth
`level`, below the row with key `parent` and after the one with key `prev`. -/
structure Places (f : Forest (Entry K T)) (level : Nat) (parent prev : Option K) (p : List Nat)
    (j : Nat) (n : Node K T) : Prop where
  entry : (f.siblings p).roots[j]? = some n.toEntry
  level : n.level = level + p.length
  parent : n.parent = f.keyAbove? parent p
  prev : n.prev = f.keyBefore? prev p j
  next : n.next = (f.siblings p).roots[j + 1]?.map (·.key)
  firstChild : n.firstChild = ((f.siblings p).under j).first?.map (·.key)
  lastChild : n.lastChild = ((f.siblings p).under j).last?.map (·.key)

variable {e : Entry K T} {cs rest : Forest (Entry K T)} {level : Nat} {parent prev : Option K}
variable {p : List Nat} {i j : Nat} {n : Node K T}

/-- A row below the first tree. -/
theorem Places.child (h : cs.Places (level + 1) (some e.key) none p j n) :
    (tree e cs rest).Places level parent prev (0 :: p) j n where
  entry := h.entry
  level := by
    rw [h.level, List.length_cons]
    omega
  parent := h.parent
  prev := by
    rw [h.prev]
    cases j with
    | zero => simp [keyBefore?]
    | succ j => rfl
  next := h.next
  firstChild := h.firstChild
  lastChild := h.lastChild

/-- A row below a later tree. -/
theorem Places.later (h : rest.Places level parent (some e.key) (i :: p) j n) :
    (tree e cs rest).Places level parent prev ((i + 1) :: p) j n where
  entry := h.entry
  level := h.level
  parent := h.parent
  prev := by
    rw [h.prev]
    cases j with
    | zero => rfl
    | succ j => rfl
  next := h.next
  firstChild := h.firstChild
  lastChild := h.lastChild

/-- A later root. Its number was one less among the trees after the first. -/
theorem Places.laterRoot (h : rest.Places level parent (some e.key) [] j n) :
    (tree e cs rest).Places level parent prev [] (j + 1) n where
  entry := h.entry
  level := h.level
  parent := h.parent
  prev := by
    rw [h.prev]
    cases j with
    | zero => rfl
    | succ j => rfl
  next := h.next
  firstChild := h.firstChild
  lastChild := h.lastChild

theorem first?_eq_getElem?_roots (f : Forest (Entry K T)) : f.first? = f.roots[0]? := by
  cases f <;> rfl

/-- Laying out makes a node for the row at every address. -/
theorem exists_mem_layOut {f : Forest (Entry K T)} (h : (f.siblings p).roots[j]? = some e)
    (level : Nat) (parent prev : Option K) (start : Nat) :
    ∃ n ∈ f.layOut level parent prev start, f.Places level parent prev p j n := by
  induction f generalizing level parent prev start p j with
  | nil =>
    rw [siblings_nil] at h
    cases h
  | tree e' cs rest ihc ihr =>
    rw [layOut]
    cases p with
    | nil =>
      cases j with
      | zero =>
        refine ⟨_, List.mem_cons_self, rfl, rfl, rfl, rfl, ?_, rfl, rfl⟩
        exact congrArg (Option.map _) (first?_eq_getElem?_roots rest)
      | succ j =>
        have hrest : (rest.siblings []).roots[j]? = some e := h
        obtain ⟨n, hn, hplace⟩ := ihr hrest level parent (some e'.key) (start + 1 + cs.size)
        exact ⟨n, List.mem_cons_of_mem _ (List.mem_append_right _ hn), hplace.laterRoot⟩
    | cons i p =>
      cases i with
      | zero =>
        have hbelow : (cs.siblings p).roots[j]? = some e := h
        obtain ⟨n, hn, hplace⟩ := ihc hbelow (level + 1) (some e'.key) none (start + 1)
        exact ⟨n, List.mem_cons_of_mem _ (List.mem_append_left _ hn), hplace.child⟩
      | succ i =>
        have hrest : (rest.siblings (i :: p)).roots[j]? = some e := h
        obtain ⟨n, hn, hplace⟩ := ihr hrest level parent (some e'.key) (start + 1 + cs.size)
        exact ⟨n, List.mem_cons_of_mem _ (List.mem_append_right _ hn), hplace.later⟩

end Forest

variable [DecidableEq K] [Hashable K]

/-! ## Collections -/

/-- `k` is the first key of the list that repeats an earlier one. -/
def FirstRepeat (ks : List K) (k : K) : Prop :=
  ∃ before after, ks = before ++ k :: after ∧ before.Nodup ∧ k ∈ before

/-- The collection holds the rows of the forest in reading order, each in its place, each under its
key, and nothing else. -/
structure Collection.Flattens (c : Collection K T) (f : Forest (Entry K T)) : Prop where
  entry : ∀ i, (c.at? i).map Node.toEntry = f.preorder[i]?
  index : ∀ i n, c.at? i = some n → n.index = i
  places : ∀ i n, c.at? i = some n → ∃ p j, f.Places 0 none none p j n
  keyed : ∀ i n, c.at? i = some n → c.get? n.key = some n
  found : ∀ (p : List Nat) (j : Nat) e, (f.siblings p).roots[j]? = some e →
    ∃ n, c.get? e.key = some n ∧ f.Places 0 none none p j n
  absent : ∀ k, k ∉ f.keys → c.get? k = none
  itemCount : c.itemCount = c.toList.countP (·.isItem)

namespace Collection

variable {f : Forest (Entry K T)} {c : Collection K T}

/-- Every row of the forest is found under its key, in its place. -/
theorem exists_get?_of_address (h : ofForest f = .ok c) {p : List Nat} {j : Nat} {e : Entry K T}
    (hj : (f.siblings p).roots[j]? = some e) :
    ∃ n, c.get? e.key = some n ∧ f.Places 0 none none p j n := by
  obtain ⟨n, hn, hplace⟩ := Forest.exists_mem_layOut hj 0 none none 0
  have hentry : n.toEntry = e := by
    have := hplace.entry
    rw [hj] at this
    exact (Option.some.inj this).symm
  refine ⟨n, get?_eq_some_iff.2 ⟨?_, ?_⟩, hplace⟩
  · rw [toList_ofForest h]
    exact hn
  · rw [← hentry]

theorem flattens_ofForest (h : ofForest f = .ok c) : c.Flattens f := by
  have hlist : c.toList = f.nodes := toList_ofForest h
  have hentries : c.toList.map Node.toEntry = f.preorder := by
    rw [hlist]
    exact Forest.map_toEntry_layOut ..
  have hkeyed : ∀ i n, c.at? i = some n → c.get? n.key = some n := by
    intro i n hn
    rw [at?_eq] at hn
    exact get?_eq_some_iff.2 ⟨List.mem_of_getElem? hn, rfl⟩
  constructor
  case entry =>
    intro i
    rw [at?_eq, ← List.getElem?_map, hentries]
  case index => exact fun i n hn => index_at? hn
  case places =>
    intro i n hn
    have hmem : n.toEntry ∈ f.preorder := by
      rw [← hentries]
      rw [at?_eq] at hn
      exact List.mem_map_of_mem (List.mem_of_getElem? hn)
    obtain ⟨p, j, hj⟩ := Forest.exists_address hmem
    -- the node at that address has the key of `n`, and a key names one node
    obtain ⟨n', hn', hplace⟩ := exists_get?_of_address h hj
    rw [hkeyed i n hn] at hn'
    cases hn'
    exact ⟨p, j, hplace⟩
  case keyed => exact hkeyed
  case found => exact fun p j e hj => exists_get?_of_address h hj
  case absent =>
    intro k hk
    rw [← keys_ofForest h, ← contains_iff_mem_keys, contains_eq_isSome_get?] at hk
    simpa using hk
  case itemCount =>
    rw [(laidOut_ofForest h).2.2, ← hentries, List.countP_map]
    rfl

/-- **Building flattens.** A forest can be built exactly if no key repeats, a key is reported exactly
if it is the first that repeats an earlier one, and the collection that is built is the forest in
reading order. -/
theorem ofForest_flattens (f : Forest (Entry K T)) :
    ((∃ c, ofForest f = .ok c) ↔ f.keys.Nodup) ∧
    (∀ k, ofForest f = .error (.duplicateKey k) ↔ FirstRepeat f.keys k) ∧
    ∀ c, ofForest f = .ok c → c.Flattens f := by
  refine ⟨exists_ofForest_ok_iff, fun k => ?_, fun c hc => flattens_ofForest hc⟩
  rw [ofForest_eq_error_iff, numberKeys_eq_error_iff, FirstRepeat]
  -- the table is empty at first, so a key can only repeat one of the forest
  simp

/-- A section over two rows, and a row after it. -/
def nested : Forest (Entry Nat Unit) :=
  .tree (.group 1 "fruit")
    (.tree (.item 2 "apple" ()) .nil (.tree (.item 3 "pear" ()) .nil .nil))
    (.tree (.item 4 "bread" ()) .nil .nil)

/-- The second row of the section stands below it and after the first. -/
theorem ofForest_flattens_nested :
    ∃ c n, ofForest nested = .ok c ∧ c.get? 3 = some n ∧ n.level = 1 ∧ n.parent = some 1 ∧
      n.prev = some 2 ∧ n.next = none := by
  obtain ⟨hok, -, hflat⟩ := ofForest_flattens nested
  obtain ⟨c, hc⟩ := hok.2 (by decide)
  obtain ⟨n, hn, hplace⟩ := (hflat c hc).found [0] 1 (.item 3 "pear" ()) rfl
  exact ⟨c, n, hc, hn, hplace.level, hplace.parent, hplace.prev, hplace.next⟩

end Collection

end Listbox
