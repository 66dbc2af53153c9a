import Listbox.Collection.Search
import Listbox.Proofs.Recovery
import Mathlib.Data.List.Chain

set_option autoImplicit false

/-! # Walks along the links

A walk looks up what a link of its row names, goes there, and stops when there is nothing. `Trail` is
that loop and nothing else, so it has no value where the loop does not end. The walks of a collection
check on the way that they move forward, or backward; no link of a collection ever fails that check
(`Linked`), so each of them is the trail of its link. -/

universe u v

namespace Listbox

/-- Going on by `step` until there is nothing, a walk visits these. -/
inductive Trail {α : Type u} (step : α → Option α) : Option α → List α → Prop where
  | stop : Trail step none []
  | go {a : α} {as : List α} (h : Trail step (step a) as) : Trail step (some a) (a :: as)

namespace Trail

variable {α : Type u} {step : α → Option α} {start : Option α} {as bs : List α}

/-- A walk has one trail at most. -/
theorem unique (ha : Trail step start as) (hb : Trail step start bs) : as = bs := by
  induction ha generalizing bs with
  | stop =>
    cases hb
    rfl
  | go _ ih =>
    cases hb with
    | go hb => rw [ih hb]

theorem iff_eq (h : Trail step start as) : Trail step start bs ↔ bs = as := by
  constructor
  · intro hb
    exact hb.unique h
  · rintro rfl
    exact h

theorem head?_eq (h : Trail step start as) : as.head? = start := by
  cases h <;> rfl

/-- What the start is and every step leads to, all that is visited is. -/
theorem forall_mem {p : α → Prop} (h : Trail step start as) (hstart : ∀ a, start = some a → p a)
    (hstep : ∀ a b, step a = some b → p b) : ∀ a ∈ as, p a := by
  induction h with
  | stop =>
    intro a ha
    cases ha
  | @go a as _ ih =>
    rw [List.forall_mem_cons]
    exact ⟨hstart a rfl, ih (hstep a)⟩

/-- Each step leads from one to the next. -/
theorem isChain (h : Trail step start as) : as.IsChain fun a b => step a = some b := by
  induction h with
  | stop => exact .nil
  | @go a as h ih =>
    cases as with
    | nil => exact .singleton a
    | cons b bs => exact .cons_cons h.head?_eq.symm ih

/-- Nothing comes after the last. -/
theorem step_getLast? (h : Trail step start as) : ∀ a, as.getLast? = some a → step a = none := by
  induction h with
  | stop =>
    intro a ha
    cases ha
  | @go b bs h ih =>
    intro a ha
    cases bs with
    | nil =>
      cases ha
      exact h.head?_eq.symm
    | cons b' bs => exact ih a ha

end Trail

theorem Forest.mem_roots_of_first? {α : Type u} {f : Forest α} {a : α} (h : f.first? = some a) :
    a ∈ f.roots := by
  cases f with
  | nil => cases h
  | tree b cs rest =>
    cases h
    exact List.mem_cons_self

namespace Collection

variable {K : Type u} {T : Type v} [DecidableEq K] [Hashable K]
variable {c : Collection K T} {n u : Node K T} {i j level start : Nat} {parent prev : Option K}
variable {g : Forest (Entry K T)} {link : Node K T → Option K}

/-! ## Where the links lead -/

/-- The row that a link of `n` leads to. -/
def follow (c : Collection K T) (link : Node K T → Option K) (n : Node K T) : Option (Node K T) :=
  (link n).bind c.get?

/-- A link found in `n` leads to a row after it. -/
def Ahead (c : Collection K T) (n : Node K T) (link : Option K) : Prop :=
  ∀ k, link = some k → ∃ u, c.get? k = some u ∧ n.index < u.index

/-- Every link of `n` leads to a row, on the side where it belongs. -/
structure Linked (c : Collection K T) (n : Node K T) : Prop where
  /-- The row above stands before it and is one level up. -/
  parent : ∀ k, n.parent = some k → ∃ u, c.get? k = some u ∧ u.index < n.index ∧ n.level = u.level + 1
  root : n.parent = none → n.level = 0
  next : c.Ahead n n.next
  firstChild : c.Ahead n n.firstChild
  lastChild : c.Ahead n n.lastChild

theorem at?_eq_some_iff : c.at? i = some n ↔ n ∈ c.toList ∧ n.index = i := by
  rw [at?_eq, getElem?_toList_eq_some_iff]

theorem at?_of_get? {k : K} (h : c.get? k = some u) : c.at? u.index = some u :=
  at?_eq_some_iff.2 ⟨(get?_eq_some_iff.1 h).1, rfl⟩

/-- The roots of a forest stand where the forest does. -/
theorem exists_get?_of_mem_roots (h : c.Hosts level parent prev start g) :
    ∀ e ∈ g.roots, ∃ u, c.get? e.key = some u ∧ start ≤ u.index := by
  induction g generalizing prev start with
  | nil =>
    intro e he
    cases he
  | tree e' cs rest _ ihr =>
    intro e he
    rcases List.mem_cons.1 he with rfl | he
    · exact ⟨_, get?_of_at? h.root, Nat.le_refl _⟩
    · obtain ⟨u, hu, hstart⟩ := ihr h.beside e he
      exact ⟨u, hu, by omega⟩

/-- A link to a root of a forest that stands later leads ahead. -/
theorem ahead_of_mem_roots (h : c.Hosts level parent prev start g) (hn : n.index < start)
    {e? : Option (Entry K T)} (he : ∀ e, e? = some e → e ∈ g.roots) :
    c.Ahead n (e?.map (·.key)) := by
  intro k hk
  obtain ⟨e, he', rfl⟩ := Option.map_eq_some_iff.1 hk
  obtain ⟨u, hu, hstart⟩ := exists_get?_of_mem_roots h e (he e he')
  exact ⟨u, hu, by omega⟩

/-- **Links.** Every link of a hosted row leads where it should, if that is so for what the forest is
below. -/
theorem linked_of_mem_layOut (h : c.Hosts level parent prev start g)
    (hparent : ∀ k, parent = some k →
      ∃ u, c.get? k = some u ∧ u.index < start ∧ level = u.level + 1)
    (hroot : parent = none → level = 0) :
    ∀ n ∈ g.layOut level parent prev start, c.Linked n := by
  induction g generalizing level parent prev start with
  | nil =>
    intro n hn
    cases hn
  | tree e cs rest ihc ihr =>
    intro n hn
    rw [Forest.layOut_tree, List.mem_cons, List.mem_append] at hn
    rcases hn with rfl | hn | hn
    · exact
        { parent := hparent
          root := hroot
          next := ahead_of_mem_roots h.beside (show start < _ by omega) fun _ =>
            Forest.mem_roots_of_first?
          firstChild := ahead_of_mem_roots h.below (Nat.lt_succ_self start) fun _ =>
            Forest.mem_roots_of_first?
          lastChild := ahead_of_mem_roots h.below (Nat.lt_succ_self start) fun _ =>
            List.mem_of_getLast? }
    · refine ihc h.below ?_ nofun n hn
      rintro k ⟨⟩
      exact ⟨_, get?_of_at? h.root, Nat.lt_succ_self start, rfl⟩
    · refine ihr h.beside ?_ hroot n hn
      intro k hk
      obtain ⟨u, hu, hbefore, hlevel⟩ := hparent k hk
      exact ⟨u, hu, by omega, hlevel⟩

theorem linked_of_mem (h : n ∈ c.toList) : c.Linked n := by
  obtain ⟨f, hf⟩ := c.exists_ofForest
  rw [toList_ofForest hf] at h
  exact linked_of_mem_layOut (hosts_ofForest hf) nofun (fun _ => rfl) n h

/-! ## The walks are trails -/

/-- Walking along links that lead ahead is following them. -/
theorem trail_along (hlink : ∀ n ∈ c.toList, c.Ahead n (link n)) (i : Nat) :
    Trail (c.follow link) (c.at? i) (c.along link i) := by
  unfold along
  cases hn : c.at? i with
  | none => exact .stop
  | some n =>
    refine .go ?_
    obtain ⟨hmem, hi⟩ := at?_eq_some_iff.1 hn
    cases hk : link n with
    | none =>
      simp only [follow, later?, hk, Option.bind_none]
      exact .stop
    | some k =>
      obtain ⟨u, hu, hahead⟩ := hlink n hmem k hk
      obtain rfl : u.key = k := (get?_eq_some_iff.1 hu).2
      rw [hi] at hahead
      simp only [follow, hk, Option.bind_some, hu, later?_of_at? (at?_of_get? hu) hahead]
      rw [← at?_of_get? hu]
      exact trail_along hlink u.index
  termination_by c.size - i
  decreasing_by
    have hlt := position?_lt (position?_of_at? (at?_of_get? hu))
    omega

/-- Walking up is following the parents. -/
theorem trail_above (i : Nat) :
    Trail (c.follow (·.parent)) ((c.at? i).bind (c.follow (·.parent))) (c.above i) := by
  unfold above
  cases hn : c.at? i with
  | none => exact .stop
  | some n =>
    obtain ⟨hmem, hi⟩ := at?_eq_some_iff.1 hn
    rw [Option.bind_some]
    cases hk : n.parent with
    | none =>
      simp only [follow, earlier?, hk, Option.bind_none]
      exact .stop
    | some k =>
      obtain ⟨u, hu, hbefore, -⟩ := (linked_of_mem hmem).parent k hk
      obtain rfl : u.key = k := (get?_eq_some_iff.1 hu).2
      rw [hi] at hbefore
      have hearlier : c.earlier? i (some u.key) = some ⟨u.index, hbefore⟩ := by
        simp [earlier?, position?_of_at? (at?_of_get? hu), hbefore]
      simp only [follow, hk, Option.bind_some, hu, hearlier, at?_of_get? hu, Option.toList_some,
        List.singleton_append]
      refine .go ?_
      have hup := trail_above u.index
      rwa [at?_of_get? hu, Option.bind_some] at hup
  termination_by i

/-- **Ancestors** are what following the parents visits, from the outermost. -/
theorem trail_ancestors (c : Collection K T) (k : K) :
    Trail (c.follow (·.parent)) (c.parent? k) (c.ancestors k).reverse := by
  unfold ancestors parent? get?
  cases c.position? k with
  | none => exact .stop
  | some i =>
    rw [List.reverse_reverse, Option.bind_some]
    exact trail_above i

/-- **Children** are what following the siblings visits, from the first child. -/
theorem trail_children (c : Collection K T) (k : K) :
    Trail (c.follow (·.next)) ((c.get? k).bind (c.follow (·.firstChild))) (c.children k) := by
  have hfirst : (c.get? k).bind (c.follow (·.firstChild)) =
      ((c.get? k).bind (·.firstChild.bind c.position?)).bind c.at? := by
    simp only [Option.bind_assoc]
    rfl
  rw [hfirst]
  unfold children
  cases (c.get? k).bind (·.firstChild.bind c.position?) with
  | none => exact .stop
  | some i => exact trail_along (fun n hn => (linked_of_mem hn).next) i

/-- **Roots** are what following the siblings visits, from the first row. -/
theorem trail_roots (c : Collection K T) : Trail (c.follow (·.next)) (c.at? 0) c.roots :=
  trail_along (fun _ hn => (linked_of_mem hn).next) 0

/-- **The last descendant** is the last that following the last children visits. -/
theorem exists_trail_lastDescendant? (c : Collection K T) (n : Node K T) :
    ∃ ns, Trail (c.follow (·.lastChild)) (c.follow (·.lastChild) n) ns ∧
      c.lastDescendant? n = ns.getLast? := by
  unfold follow lastDescendant? get?
  rw [← Option.bind_assoc]
  cases n.lastChild.bind c.position? with
  | none => exact ⟨[], .stop, rfl⟩
  | some i => exact ⟨_, trail_along (fun n hn => (linked_of_mem hn).lastChild) i, rfl⟩

end Collection

end Listbox
