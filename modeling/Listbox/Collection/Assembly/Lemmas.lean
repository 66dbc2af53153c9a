import Listbox.Collection.Assembly

set_option autoImplicit false

/-! # Assembling is laying out

`Assembly.add` edits rows that it placed long before, so a row is finished only after everything
below it and the sibling after it. `Node.attach` says what an earlier row learns when trees are
added later; with it, one induction over the forest gives the rows after every call (`toList_add`).

`assemble_eq` says what comes out in the end: the rows are the layout of the forest, the table is
the numbering of its keys, and assembling fails exactly if numbering does. -/

universe u v

namespace Listbox

/-! ## What earlier rows learn -/

/-- What the row at position `i` learns when trees with these first and last keys are added below
the row at `parent`, after the sibling at `prev`. -/
def Node.attach {K : Type u} {T : Type v} (n : Node K T) (parent prev : Option Nat)
    (first last : Option K) (i : Nat) : Node K T :=
  { n with
    next := if prev = some i then first.or n.next else n.next
    firstChild := if parent = some i ∧ prev = none then first.or n.firstChild else n.firstChild
    lastChild := if parent = some i then last.or n.lastChild else n.lastChild }

section

variable {K : Type u} {T : Type v} {parent prev : Option Nat} {i s : Nat}

theorem Node.attach_none (n : Node K T) : n.attach parent prev none none i = n := by
  simp [attach]

theorem Node.attach_of_ne (hparent : parent ≠ some i) (hprev : prev ≠ some i)
    (first last : Option K) (n : Node K T) : n.attach parent prev first last i = n := by
  simp [attach, hparent, hprev]

/-- A first tree is attached, then those after it. -/
theorem Node.attach_attach {j : Nat} (hij : i ≠ j) (k : K) (first last : Option K)
    (n : Node K T) :
    (n.attach parent prev (some k) (some k) i).attach parent (some j) first last i =
      n.attach parent prev (some k) (last.or (some k)) i := by
  have hji : j ≠ i := fun h => hij h.symm
  by_cases hparent : parent = some i
  · cases last <;> simp [attach, hparent, hji]
  · simp [attach, hparent, hji]

/-- A change that leaves alone what comes after position `s`. -/
theorem mapIdx_append_cons {α : Type v} {g : Nat → α → α} {before after : List α} {x : α}
    (hs : before.length = s) (hafter : ∀ i y, s < i → g i y = y) :
    (before ++ x :: after).mapIdx g = before.mapIdx g ++ g s x :: after := by
  subst hs
  have hrest : after.mapIdx (fun i => g (i + 1 + before.length)) = after := by
    refine List.mapIdx_eq_iff.2 fun i => ?_
    have hid : g (i + 1 + before.length) = id := by
      funext y
      exact hafter _ y (by omega)
    rw [hid, Option.map_id_fun, id]
  rw [List.mapIdx_append, List.mapIdx_cons, Nat.zero_add, hrest]

/-- Rows after both the parent and the sibling before learn nothing. -/
theorem mapIdx_attach {before after : List (Node K T)} {n : Node K T} (hs : before.length = s)
    (hparent : ∀ i, parent = some i → i ≤ s) (hprev : ∀ i, prev = some i → i ≤ s)
    (first last : Option K) :
    (before ++ n :: after).mapIdx (fun i m => m.attach parent prev first last i) =
      (before.mapIdx fun i m => m.attach parent prev first last i) ++
        n.attach parent prev first last s :: after := by
  refine mapIdx_append_cons hs fun i m hi => Node.attach_of_ne ?_ ?_ first last m
  · intro hp
    exact absurd (hparent i hp) (by omega)
  · intro hp
    exact absurd (hprev i hp) (by omega)

/-- Among the rows placed so far, only the last one learns about those below it. -/
theorem mapIdx_attach_last {before : List (Node K T)} (hs : before.length = s) (n : Node K T)
    (first last : Option K) :
    (before ++ [n]).mapIdx (fun i m => m.attach (some s) none first last i) =
      before ++ [{ n with
        firstChild := first.or n.firstChild
        lastChild := last.or n.lastChild }] := by
  have hbefore : before.mapIdx (fun i m => m.attach (some s) none first last i) = before := by
    refine List.mapIdx_eq_iff.2 fun i => ?_
    cases hi : before[i]? with
    | none => rfl
    | some m =>
      obtain ⟨hlt, -⟩ := List.getElem?_eq_some_iff.1 hi
      have hne : some s ≠ some i := by
        rw [ne_eq, Option.some.injEq]
        omega
      rw [Option.map_some, Node.attach_of_ne hne (fun hp => by cases hp)]
  rw [mapIdx_attach hs (fun i hi => Nat.le_of_eq (Option.some.inj hi).symm)
    (fun i hi => by cases hi), hbefore]
  simp [Node.attach]

end

namespace Assembly

variable {K : Type u} {T : Type v} [DecidableEq K] [Hashable K]

/-! ## What adding a tree does -/

theorem add_tree (a : Assembly K T) (parent prev : Option Nat) (level : Nat) (e : Entry K T)
    (cs rest : Forest (Entry K T)) :
    a.add parent prev level (.tree e cs rest) =
      if a.positions.contains e.key then .error (.duplicateKey e.key)
      else ((a.place e parent level).add (some a.nodes.size) none (level + 1) cs).bind fun b =>
        (b.link parent prev a.nodes.size).add parent (some a.nodes.size) level rest := rfl

/-- A tree is added by placing its root, adding what is below, tying the root, and going on. -/
theorem add_tree_eq_ok_iff {a r : Assembly K T} {parent prev : Option Nat} {level : Nat}
    {e : Entry K T} {cs rest : Forest (Entry K T)} :
    a.add parent prev level (.tree e cs rest) = .ok r ↔
      a.positions.contains e.key = false ∧
      ∃ b, (a.place e parent level).add (some a.nodes.size) none (level + 1) cs = .ok b ∧
        (b.link parent prev a.nodes.size).add parent (some a.nodes.size) level rest = .ok r := by
  rw [add_tree]
  split
  · next known => simp [known]
  · next fresh =>
    cases (a.place e parent level).add (some a.nodes.size) none (level + 1) cs with
    | error e => simp [Except.bind]
    | ok b => simp [Except.bind, fresh]

/-! ## The keys placed -/

/-- The keys of the rows placed so far. -/
def keys (a : Assembly K T) : List K := a.nodes.toList.map (·.key)

theorem keyAt?_eq (a : Assembly K T) (i : Nat) : a.keyAt? i = a.keys[i]? := by
  rw [keyAt?, keys, List.getElem?_map, Array.getElem?_toList]

theorem length_keys (a : Assembly K T) : a.keys.length = a.nodes.size := by simp [keys]

@[simp] theorem keys_place (a : Assembly K T) (e : Entry K T) (parent : Option Nat) (level : Nat) :
    (a.place e parent level).keys = a.keys ++ [e.key] := by
  simp [keys, place, Node.unlinked]

@[simp] theorem size_place (a : Assembly K T) (e : Entry K T) (parent : Option Nat) (level : Nat) :
    (a.place e parent level).nodes.size = a.nodes.size + 1 := by
  rw [← length_keys, keys_place, List.length_append, length_keys, List.length_singleton]

theorem toList_edit (a : Assembly K T) (i : Nat) (g : Node K T → Node K T) :
    (a.edit i g).nodes.toList = a.nodes.toList.mapIdx fun j n => if i = j then g n else n := by
  apply List.ext_getElem?
  intro j
  rw [edit, Array.toList_modify, List.getElem?_modify, List.getElem?_mapIdx]
  rfl

/-- Editing a row that keeps its key keeps the keys. -/
theorem keys_edit (a : Assembly K T) (i : Nat) {g : Node K T → Node K T}
    (hg : ∀ n, (g n).key = n.key) : (a.edit i g).keys = a.keys := by
  apply List.ext_getElem?
  intro j
  rw [keys, keys, toList_edit, List.getElem?_map, List.getElem?_map, List.getElem?_mapIdx]
  cases a.nodes.toList[j]? with
  | none => rfl
  | some n => by_cases hij : i = j <;> simp [hij, hg]

@[simp] theorem keys_linkSiblings (a : Assembly K T) (prev : Option Nat) (next : Nat) :
    (a.linkSiblings prev next).keys = a.keys := by
  cases prev with
  | none => rfl
  | some prev =>
    rw [linkSiblings, keys_edit, keys_edit]
    all_goals exact fun _ => rfl

@[simp] theorem keys_link (a : Assembly K T) (parent prev : Option Nat) (child : Nat) :
    (a.link parent prev child).keys = a.keys := by
  cases parent with
  | none => exact keys_linkSiblings a prev child
  | some parent =>
    rw [link, linkParent, keys_edit, keys_linkSiblings]
    exact fun _ => rfl

@[simp] theorem size_link (a : Assembly K T) (parent prev : Option Nat) (child : Nat) :
    (a.link parent prev child).nodes.size = a.nodes.size := by
  rw [← length_keys, keys_link, length_keys]

@[simp] theorem positions_link (a : Assembly K T) (parent prev : Option Nat) (child : Nat) :
    (a.link parent prev child).positions = a.positions := by
  cases parent <;> cases prev <;> rfl

@[simp] theorem itemCount_link (a : Assembly K T) (parent prev : Option Nat) (child : Nat) :
    (a.link parent prev child).itemCount = a.itemCount := by
  cases parent <;> cases prev <;> rfl

theorem keys_add {a r : Assembly K T} {parent prev : Option Nat} {level : Nat}
    {f : Forest (Entry K T)} (h : a.add parent prev level f = .ok r) :
    r.keys = a.keys ++ f.keys := by
  induction f generalizing a r parent prev level with
  | nil =>
    cases h
    simp [Forest.keys, Forest.preorder]
  | tree e cs rest ihc ihr =>
    obtain ⟨-, b, hb, hr⟩ := add_tree_eq_ok_iff.1 h
    rw [ihr hr, keys_link, ihc hb, keys_place]
    simp [Forest.keys, Forest.preorder]

theorem size_add {a r : Assembly K T} {parent prev : Option Nat} {level : Nat}
    {f : Forest (Entry K T)} (h : a.add parent prev level f = .ok r) :
    r.nodes.size = a.nodes.size + f.size := by
  rw [← length_keys, keys_add h, List.length_append, length_keys, Forest.length_keys]

theorem itemCount_add {a r : Assembly K T} {parent prev : Option Nat} {level : Nat}
    {f : Forest (Entry K T)} (h : a.add parent prev level f = .ok r) :
    r.itemCount = a.itemCount + f.preorder.countP (·.isItem) := by
  induction f generalizing a r parent prev level with
  | nil =>
    cases h
    rfl
  | tree e cs rest ihc ihr =>
    obtain ⟨-, b, hb, hr⟩ := add_tree_eq_ok_iff.1 h
    rw [ihr hr, itemCount_link, ihc hb, Forest.preorder, List.countP_cons, List.countP_append]
    simp only [place]
    split <;> omega

/-- The table that adding builds is the numbering of the keys, and a key is refused exactly if
numbering refuses it. -/
theorem positions_add (a : Assembly K T) (parent prev : Option Nat) (level : Nat)
    (f : Forest (Entry K T)) :
    (a.add parent prev level f).map (·.positions) =
      numberKeys a.nodes.size a.positions f.keys := by
  induction f generalizing a parent prev level with
  | nil => rfl
  | tree e cs rest ihc ihr =>
    have hkeys : Forest.keys (.tree e cs rest) = e.key :: (cs.keys ++ rest.keys) := by
      simp [Forest.keys, Forest.preorder]
    rw [hkeys, add_tree, numberKeys]
    split
    · rfl
    -- the rows below the root are numbered first, and the trees after it from there
    · have hbelow := ihc (a.place e parent level) (some a.nodes.size) none (level + 1)
      rw [size_place] at hbelow
      change _ = numberKeys (a.nodes.size + 1) (a.place e parent level).positions _
      rw [numberKeys_append, ← hbelow]
      cases hb : (a.place e parent level).add (some a.nodes.size) none (level + 1) cs with
      | error e => rfl
      | ok b =>
        have hrest := ihr (b.link parent prev a.nodes.size) parent (some a.nodes.size) level
        rw [size_link, positions_link, size_add hb, size_place] at hrest
        rw [Forest.length_keys]
        exact hrest

/-! ## The rows placed -/

@[simp] theorem keyAt?_linkSiblings (a : Assembly K T) (prev : Option Nat) (next i : Nat) :
    (a.linkSiblings prev next).keyAt? i = a.keyAt? i := by
  rw [keyAt?_eq, keyAt?_eq, keys_linkSiblings]

theorem toList_linkSiblings (a : Assembly K T) {prev : Option Nat} {next : Nat}
    (hprev : prev ≠ some next) :
    (a.linkSiblings prev next).nodes.toList = a.nodes.toList.mapIdx fun i n =>
      if next = i then { n with prev := if prev = none then n.prev else prev.bind a.keyAt? }
      else { n with next := if prev = some i then a.keyAt? next else n.next } := by
  cases prev with
  | none =>
    refine (List.mapIdx_eq_iff.2 fun i => ?_).symm
    simp [linkSiblings]
  | some prev =>
    simp only [linkSiblings, toList_edit, List.mapIdx_mapIdx]
    refine List.mapIdx_eq_mapIdx_iff.2 fun i _ => ?_
    by_cases hnext : next = i
    · have hne : prev ≠ i := fun h => hprev (by rw [h, hnext])
      simp [hnext, hne]
    · by_cases hp : prev = i <;> simp [hnext, hp]

theorem toList_linkParent (a : Assembly K T) (parent prev : Option Nat) (child : Nat) :
    (a.linkParent parent prev child).nodes.toList = a.nodes.toList.mapIdx fun i n =>
      { n with
        firstChild := if parent = some i ∧ prev = none then a.keyAt? child else n.firstChild
        lastChild := if parent = some i then a.keyAt? child else n.lastChild } := by
  cases parent with
  | none =>
    refine (List.mapIdx_eq_iff.2 fun i => ?_).symm
    simp [linkParent]
  | some parent =>
    rw [linkParent, toList_edit]
    refine List.mapIdx_eq_mapIdx_iff.2 fun i _ => ?_
    by_cases hp : parent = i <;> simp [hp]

/-- Tying a row gives it the sibling before it, and tells that sibling and the parent about it. -/
theorem toList_link (a : Assembly K T) {parent prev : Option Nat} {child : Nat} {k : K}
    (hchild : a.keyAt? child = some k) (hparent : parent ≠ some child)
    (hprev : prev ≠ some child) :
    (a.link parent prev child).nodes.toList = a.nodes.toList.mapIdx fun i n =>
      if child = i then { n with prev := if prev = none then n.prev else prev.bind a.keyAt? }
      else n.attach parent prev (some k) (some k) i := by
  rw [link, toList_linkParent, toList_linkSiblings a hprev, List.mapIdx_mapIdx,
    keyAt?_linkSiblings, hchild]
  refine List.mapIdx_eq_mapIdx_iff.2 fun i _ => ?_
  by_cases hi : child = i
  · subst hi
    simp [hparent]
  · simp [hi, Node.attach]

/-- The same where the row at `s` has no sibling before it yet. -/
theorem toList_link_of_append {b : Assembly K T} {before after : List (Node K T)} {n : Node K T}
    {parent prev : Option Nat} {s : Nat} (hs : before.length = s)
    (hb : b.nodes.toList = before ++ n :: after) (hn : n.prev = none)
    (hparent : ∀ i, parent = some i → i < s) (hprev : ∀ i, prev = some i → i < s) :
    (b.link parent prev s).nodes.toList =
      (before.mapIdx fun i m => m.attach parent prev (some n.key) (some n.key) i) ++
        { n with prev := prev.bind b.keyAt? } :: after := by
  have hkey : b.keyAt? s = some n.key := by
    rw [keyAt?, ← Array.getElem?_toList, hb, ← hs]
    simp
  rw [toList_link b hkey (fun hp => Nat.lt_irrefl _ (hparent _ hp))
    (fun hp => Nat.lt_irrefl _ (hprev _ hp)), hb, mapIdx_append_cons hs]
  · congr 1
    · refine List.mapIdx_eq_mapIdx_iff.2 fun i hi => ?_
      rw [if_neg (by omega)]
    · rw [if_pos rfl, hn]
      cases prev <;> rfl
  · intro i m hi
    rw [if_neg (Nat.ne_of_lt hi)]
    refine Node.attach_of_ne (fun hp => ?_) (fun hp => ?_) _ _ m
    · exact absurd (hparent i hp) (by omega)
    · exact absurd (hprev i hp) (by omega)

/-- The row placed last learns its first and its last child, and no other row learns anything. -/
theorem mapIdx_attach_place (a : Assembly K T) (e : Entry K T) (parent : Option Nat) (level : Nat)
    (first last : Option K) :
    ((a.place e parent level).nodes.toList.mapIdx fun i n =>
        n.attach (some a.nodes.size) none first last i) =
      a.nodes.toList ++
        [{ Node.unlinked e a.nodes.size level (parent.bind a.keyAt?) with
          firstChild := first
          lastChild := last }] := by
  rw [place, Array.toList_push, mapIdx_attach_last Array.length_toList]
  simp [Node.unlinked]

/-- Links to rows that stood before are the same afterwards. -/
theorem bind_keyAt?_of_keys {a b : Assembly K T} {ks : List K} (h : b.keys = a.keys ++ ks)
    {o : Option Nat} (ho : ∀ i, o = some i → i < a.nodes.size) :
    o.bind b.keyAt? = o.bind a.keyAt? := by
  cases o with
  | none => rfl
  | some i =>
    have hi : i < a.keys.length := by
      rw [length_keys]
      exact ho i rfl
    rw [Option.bind_some, Option.bind_some, keyAt?_eq, keyAt?_eq, h, List.getElem?_append_left hi]

/-- The root of a tree is the first row placed for it. -/
theorem keyAt?_of_keys {a b : Assembly K T} {k : K} {ks : List K} (h : b.keys = a.keys ++ k :: ks) :
    b.keyAt? a.nodes.size = some k := by
  rw [keyAt?_eq, h, ← length_keys]
  simp

/-- **Adding appends the layout of the forest**, and changes the earlier rows only in what the
parent and the sibling before learn. -/
theorem toList_add {a r : Assembly K T} {parent prev : Option Nat} {level : Nat}
    {f : Forest (Entry K T)} (h : a.add parent prev level f = .ok r)
    (hparent : ∀ i, parent = some i → i < a.nodes.size)
    (hprev : ∀ i, prev = some i → i < a.nodes.size) :
    r.nodes.toList =
      (a.nodes.toList.mapIdx fun i n =>
        n.attach parent prev (f.first?.map (·.key)) (f.last?.map (·.key)) i) ++
      f.layOut level (parent.bind a.keyAt?) (prev.bind a.keyAt?) a.nodes.size := by
  -- the rows placed so far have to be general: the calls for the children and for the trees after
  -- find different ones
  induction f generalizing a r parent prev level with
  | nil =>
    cases h
    rw [Forest.layOut, List.append_nil]
    refine (List.mapIdx_eq_iff.2 fun i => ?_).symm
    simp [Forest.first?, Forest.last?, Forest.roots, Node.attach_none]
  | tree e cs rest ihc ihr =>
    obtain ⟨-, b, hb, hr⟩ := add_tree_eq_ok_iff.1 h
    have hkeys : b.keys = a.keys ++ e.key :: cs.keys := by
      rw [keys_add hb, keys_place, List.append_assoc, List.singleton_append]
    have hlinkKeys : (b.link parent prev a.nodes.size).keys = a.keys ++ e.key :: cs.keys := by
      rw [keys_link, hkeys]
    have hsize : (b.link parent prev a.nodes.size).nodes.size = a.nodes.size + 1 + cs.size := by
      rw [size_link, size_add hb, size_place]
    have hparent' : parent ≠ some a.nodes.size := fun hp => Nat.lt_irrefl _ (hparent _ hp)
    -- below the root, only the root itself learns about the rows added
    have hbelow : b.nodes.toList = a.nodes.toList ++
        { Node.unlinked e a.nodes.size level (parent.bind a.keyAt?) with
          firstChild := cs.first?.map (·.key)
          lastChild := cs.last?.map (·.key) } ::
        cs.layOut (level + 1) (some e.key) none (a.nodes.size + 1) := by
      rw [ihc hb (by simp) (by simp), mapIdx_attach_place, size_place, Option.bind_some,
        keyAt?_of_keys (keys_place a e parent level), List.append_assoc, List.singleton_append]
      rfl
    -- then the root is tied to its parent and to the sibling before it
    have hlink : (b.link parent prev a.nodes.size).nodes.toList =
        (a.nodes.toList.mapIdx fun i n => n.attach parent prev (some e.key) (some e.key) i) ++
          { Node.unlinked e a.nodes.size level (parent.bind a.keyAt?) with
            prev := prev.bind a.keyAt?
            firstChild := cs.first?.map (·.key)
            lastChild := cs.last?.map (·.key) } ::
          cs.layOut (level + 1) (some e.key) none (a.nodes.size + 1) := by
      rw [← bind_keyAt?_of_keys hkeys hprev]
      exact toList_link_of_append Array.length_toList hbelow rfl hparent hprev
    -- and the trees after it are added with the root as the sibling before
    have hlater := ihr hr (fun i hi => ?_) (fun i hi => ?_)
    · rw [hlater, hsize, bind_keyAt?_of_keys hlinkKeys hparent, Option.bind_some, hlink,
        mapIdx_attach (by simp) (fun i hi => Nat.le_of_lt (hparent i hi))
          (fun i hi => Nat.le_of_eq (Option.some.inj hi).symm),
        List.mapIdx_mapIdx, Forest.layOut, List.append_assoc, List.cons_append]
      congr 1
      · refine List.mapIdx_eq_mapIdx_iff.2 fun i hi => ?_
        have hne : i ≠ a.nodes.size := Nat.ne_of_lt hi
        rw [Function.comp_apply, Node.attach_attach hne, Forest.last?_tree]
        cases rest.last? <;> rfl
      · rw [keyAt?_of_keys hlinkKeys]
        simp [Node.attach, Node.unlinked, hparent']
    · have := hparent i hi
      omega
    · cases hi
      omega

/-! ## The whole forest -/

/-- **Assembling is laying out.** The rows are the layout of the forest, the table is the numbering
of its keys, and the keys that numbering refuses are refused. -/
theorem assemble_eq (f : Forest (Entry K T)) :
    assemble f = (numberKeys 0 ∅ f.keys).map fun positions =>
      { nodes := f.nodes.toArray, positions, itemCount := f.preorder.countP (·.isItem) } := by
  have hpositions : (assemble f).map (·.positions) = numberKeys 0 ∅ f.keys :=
    positions_add empty none none 0 f
  rw [← hpositions]
  cases hr : assemble f with
  | error e => rfl
  | ok r =>
    have hnodes : r.nodes.toList = f.nodes := toList_add hr nofun nofun
    have hcount : r.itemCount = 0 + f.preorder.countP (·.isItem) := itemCount_add hr
    rw [Nat.zero_add] at hcount
    change Except.ok r = Except.ok _
    rw [← hnodes, ← hcount]

end Assembly

end Listbox
