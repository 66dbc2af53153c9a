import Listbox.Proofs.Appending
import Listbox.Proofs.Filtering

set_option autoImplicit false

/-! # Laws of filtering

A predicate that reads of a row only what filtering leaves alone, its entry, its depth and its parent,
sees the same before and after (`outlined_retain`). So filtering with it cuts a forest of outlines
down, and its laws are those of `Forest.retain`: it goes through appending, doing it twice is doing it
once, and a predicate that accepts more keeps more (`filter_laws`). -/

universe u v w

namespace Listbox

/-- Asking a predicate that remembers nothing. -/
theorem ask_pure {α : Type u} {σ : Type w} (p : α → Bool) (s : σ) (as : List α) :
    ask (fun s a => (p a, s)) s as = (as.map fun a => (a, p a), s) := by
  induction as with
  | nil => rfl
  | cons a as ih => rw [ask, ih, List.map_cons]

namespace Forest

section

variable {α : Type u} {β : Type v} {γ : Type w} {p q : α → Bool}

theorem map_map (g : β → γ) (h : α → β) (f : Forest α) : (f.map h).map g = f.map (g ∘ h) := by
  induction f with
  | nil => rfl
  | tree a cs rest ihc ihr => rw [map, map, map, ihc, ihr, Function.comp_apply]

/-! ## Laws of retaining -/

theorem retain_append (p : α → Bool) (f g : Forest α) :
    (f ++ g).retain p = f.retain p ++ g.retain p := by
  induction f with
  | nil => rfl
  | tree a cs rest _ ihr =>
    rw [tree_append, retain, retain, ihr]
    split <;> rfl

/-- What is retained is retained again: a label that stays for the sake of one below it still has
that one below it. -/
theorem retain_retain (p : α → Bool) (f : Forest α) : (f.retain p).retain p = f.retain p := by
  induction f with
  | nil => rfl
  | tree a cs rest ihc ihr =>
    rw [retain]
    split
    · next stays => rw [retain, ihc, ihr, if_pos stays]
    · exact ihr

/-- A predicate that accepts more retains more. -/
theorem preorder_retain_sublist_retain {f : Forest α} (h : ∀ a ∈ f.preorder, p a = true → q a = true) :
    (f.retain p).preorder.Sublist (f.retain q).preorder := by
  induction f with
  | nil => exact .refl _
  | tree a cs rest ihc ihr =>
    rw [preorder, List.forall_mem_cons, List.forall_mem_append] at h
    obtain ⟨hroot, hbelow, hbeside⟩ := h
    have hcs := ihc hbelow
    have hrest := ihr hbeside
    have hstays : (p a || !(cs.retain p).isEmpty) = true →
        (q a || !(cs.retain q).isEmpty) = true := by
      simp only [Bool.or_eq_true, Bool.not_eq_true', isEmpty_eq_false_iff]
      exact Or.imp hroot (Exists.imp fun b hb => hcs.subset hb)
    rw [retain, retain]
    split
    · next stays =>
      rw [if_pos (hstays stays)]
      exact (hcs.append hrest).cons_cons a
    · split
      · exact (hrest.trans (List.sublist_append_right ..)).cons a
      · exact hrest

end

variable {K : Type u} {T : Type v}

/-! ## Outlines -/

/-- The forest with every entry under its depth and its parent. -/
def outlined (level : Nat) (parent : Option K) :
    Forest (Entry K T) → Forest (Entry K T × Nat × Option K)
  | .nil => .nil
  | .tree e cs rest =>
    .tree (e, level, parent) (cs.outlined (level + 1) (some e.key)) (rest.outlined level parent)

theorem map_outline_placed (f : Forest (Entry K T)) (level : Nat) (parent prev : Option K)
    (start : Nat) :
    (f.placed level parent prev start).map Node.outline = f.outlined level parent := by
  induction f generalizing level parent prev start with
  | nil => rfl
  | tree e cs rest ihc ihr =>
    rw [placed, map, ihc, ihr]
    rfl

@[simp] theorem map_fst_outlined (f : Forest (Entry K T)) (level : Nat) (parent : Option K) :
    (f.outlined level parent).map Prod.fst = f := by
  induction f generalizing level parent with
  | nil => rfl
  | tree e cs rest ihc ihr => rw [outlined, map, ihc, ihr]

theorem outlined_append (f g : Forest (Entry K T)) (level : Nat) (parent : Option K) :
    (f ++ g).outlined level parent = f.outlined level parent ++ g.outlined level parent := by
  induction f with
  | nil => rfl
  | tree e cs rest _ ihr => rw [tree_append, outlined, ihr, outlined, tree_append]

/-- **Retaining leaves outlines alone.** A row that stays has everything above it stay, so its depth
and its parent are what they were. -/
theorem outlined_retain (p : Entry K T × Nat × Option K → Bool) (f : Forest (Entry K T))
    (level : Nat) (parent : Option K) :
    (((f.outlined level parent).retain p).map Prod.fst).outlined level parent =
      (f.outlined level parent).retain p := by
  induction f generalizing level parent with
  | nil => rfl
  | tree e cs rest ihc ihr =>
    rw [outlined, retain]
    split
    · rw [map, outlined, ihc, ihr]
    · exact ihr level parent

end Forest

namespace Collection

variable {K : Type u} {T : Type v} [DecidableEq K] [Hashable K]
variable {c d e : Collection K T} {more : Forest (Entry K T)}
variable {p q : Entry K T × Nat × Option K → Bool}

/-- The hierarchy of a collection with every entry under its depth and its parent. -/
def outlines (c : Collection K T) : Forest (Entry K T × Nat × Option K) := c.entries.outlined 0 none

theorem map_outline_forest (c : Collection K T) : c.forest.map Node.outline = c.outlines := by
  rw [forest_ofForest c.ofForest_entries, Forest.map_outline_placed, outlines]

theorem preorder_outlines (c : Collection K T) : c.outlines.preorder = c.toList.map Node.outline := by
  rw [← map_outline_forest, Forest.preorder_map, preorder_forest]

theorem keys_eq_outlines (c : Collection K T) : c.keys = c.outlines.preorder.map (·.1.key) := by
  rw [preorder_outlines, List.map_map]
  rfl

/-- Outlines tell collections apart. -/
theorem outlines_inj (h : c.outlines = d.outlines) : c = d := by
  have hentries : c.entries = d.entries := by
    rw [← c.entries.map_fst_outlined 0 none, ← d.entries.map_fst_outlined 0 none]
    exact congrArg (Forest.map Prod.fst) h
  have hbuilt := c.ofForest_entries
  rw [hentries, ofForest_entries] at hbuilt
  exact (Except.ok.inj hbuilt).symm

theorem outlines_append (h : c.append more = .ok e) (hd : ofForest more = .ok d) :
    e.outlines = c.outlines ++ d.outlines := by
  rw [outlines, entries_append h, Forest.outlined_append, outlines, outlines, entries_ofForest hd]

/-! ## Filtering outlines -/

theorem entries_filterWith {σ : Type w} (c : Collection K T) (keep : σ → Node K T → Bool × σ)
    (s : σ) : (c.filterWith keep s).1.entries = (c.subforest true keep s).1 := by
  obtain ⟨f, hf⟩ := c.exists_ofForest
  rw [subforest_eq_retain hf]
  exact entries_ofForest (ofForest_retain hf keep s)

/-- Filtering with a predicate that remembers nothing retains the items that have it. -/
theorem entries_filter (c : Collection K T) (p : Node K T → Bool) :
    (c.filter p).entries = (c.forest.retain fun n => n.isItem && p n).map Node.toEntry := by
  rw [filter, entries_filterWith, subforest, Forest.prune_eq_retain]
  · intro x hx
    rw [ask_pure] at hx
    obtain ⟨n, hn, rfl⟩ := List.mem_map.1 hx
    obtain ⟨-, hitem⟩ := List.mem_filter.1 hn
    simp only [hitem, Bool.true_and]
  · intro n _ hgroup
    rw [hgroup, Bool.false_and]

/-- The rows that stay are the accepted items and the rows above them. -/
theorem contains_filter_iff {p : Node K T → Bool} {n : Node K T} (hn : n ∈ c.toList) :
    (c.filter p).contains n.key ↔ (n.isItem && p n) = true ∨
      ∃ i ∈ c.toList, (i.isItem && p i) = true ∧ n ∈ c.ancestors i.key := by
  have hkeys : (c.filter p).keys =
      (c.forest.retain fun n => n.isItem && p n).preorder.map (·.key) := by
    rw [keys_ofForest (c.filter p).ofForest_entries, entries_filter, Forest.keys,
      Forest.preorder_map, List.map_map]
    rfl
  rw [contains_iff_mem_keys, hkeys, key_mem_retain_iff hn, Forest.mem_preorder_retain_iff,
    spares_forest_iff hn]

/-- **Filtering outlines.** What filtering leaves are the outlines that were there. -/
theorem outlines_filter (c : Collection K T) (p : Entry K T × Nat × Option K → Bool) :
    (c.filter fun n => p n.outline).outlines = c.outlines.retain fun x => x.1.isItem && p x := by
  have hentries : (c.filter fun n => p n.outline).entries =
      (c.outlines.retain fun x => x.1.isItem && p x).map Prod.fst := by
    rw [entries_filter, ← map_outline_forest, Forest.retain_map, Forest.map_map]
    rfl
  rw [outlines, hentries]
  exact Forest.outlined_retain ..

theorem keys_filter (c : Collection K T) (p : Entry K T × Nat × Option K → Bool) :
    (c.filter fun n => p n.outline).keys =
      (c.outlines.retain fun x => x.1.isItem && p x).preorder.map (·.1.key) := by
  rw [keys_eq_outlines, outlines_filter]

/-- **Laws of filtering.** For predicates that read the entry, the depth and the parent of a row: the
rows that stay are the accepted items and what is above them; filtering what was appended to gives
the rows that filtering the old collection gives and then those of the new trees by themselves;
filtering again changes nothing; and a predicate that accepts more keeps all that the other one
keeps, in the same order. -/
theorem filter_laws (c : Collection K T) (p q : Entry K T × Nat × Option K → Bool) :
    (∀ n ∈ c.toList, (c.filter fun n => p n.outline).contains n.key ↔
      (n.isItem && p n.outline) = true ∨
        ∃ i ∈ c.toList, (i.isItem && p i.outline) = true ∧ n ∈ c.ancestors i.key) ∧
    (∀ more e, c.append more = .ok e → ∃ d, ofForest more = .ok d ∧
      (e.filter fun n => p n.outline).keys =
        (c.filter fun n => p n.outline).keys ++ (d.filter fun n => p n.outline).keys) ∧
    ((c.filter fun n => p n.outline).filter fun n => p n.outline) =
      (c.filter fun n => p n.outline) ∧
    ((∀ n ∈ c.toList, p n.outline = true → q n.outline = true) →
      (c.filter fun n => p n.outline).keys.Sublist (c.filter fun n => q n.outline).keys) := by
  refine ⟨fun n hn => contains_filter_iff hn, fun more e he => ?_, outlines_inj ?_, fun himp => ?_⟩
  · obtain ⟨d, hd⟩ : ∃ d, ofForest more = .ok d := by
      have hnodup := e.nodup_keys
      rw [keys_append he] at hnodup
      exact exists_ofForest_ok_iff.2 (List.nodup_append.1 hnodup).2.1
    refine ⟨d, hd, ?_⟩
    rw [keys_filter, keys_filter, keys_filter, outlines_append he hd, Forest.retain_append,
      Forest.preorder_append, List.map_append]
  · rw [outlines_filter, outlines_filter, Forest.retain_retain]
  · rw [keys_filter, keys_filter]
    refine (Forest.preorder_retain_sublist_retain fun x hx => ?_).map _
    rw [preorder_outlines] at hx
    obtain ⟨n, hn, rfl⟩ := List.mem_map.1 hx
    simp only [Bool.and_eq_true]
    exact And.imp_right (himp n hn)

/-- Filtered by depth, two shelves with a row appended keep what they keep by themselves: the row two
levels down and what is above it. -/
theorem filter_laws_shelves :
    ∃ c d e, ofForest shelves = .ok c ∧ c.append (.leaf (.item 7 "fig" ())) = .ok e ∧
      ofForest (.leaf (.item 7 "fig" ())) = .ok d ∧
      (e.filter fun n => decide (2 ≤ n.level)).keys =
        (c.filter fun n => decide (2 ≤ n.level)).keys ++
          (d.filter fun n => decide (2 ≤ n.level)).keys ∧
      (c.filter fun n => decide (2 ≤ n.level)).keys = [1, 3, 4] ∧
      (c.filter fun n => decide (2 ≤ n.level)).keys.Sublist
        (c.filter fun n => decide (1 ≤ n.level)).keys := by
  obtain ⟨c, hc⟩ := exists_ofForest_ok_iff.2 (show shelves.keys.Nodup by decide)
  obtain ⟨e, he⟩ := exists_ofForest_ok_iff.2
    (show (shelves ++ .leaf (Entry.item 7 "fig" ())).keys.Nodup by decide)
  have happend : c.append (.leaf (.item 7 "fig" ())) = .ok e := by
    rw [append, entries_ofForest hc]
    exact he
  obtain ⟨-, hparts, -, hmono⟩ :=
    filter_laws c (fun x => decide (2 ≤ x.2.1)) (fun x => decide (1 ≤ x.2.1))
  obtain ⟨d, hd, hkeys⟩ := hparts _ e happend
  refine ⟨c, d, e, hc, happend, hd, hkeys, ?_, hmono fun n _ hn => ?_⟩
  · have hkept := keys_filter c fun x => decide (2 ≤ x.2.1)
    rw [outlines, entries_ofForest hc] at hkept
    exact hkept
  · rw [decide_eq_true_iff] at hn ⊢
    exact Nat.le_of_succ_le hn

end Collection

end Listbox
