import Listbox.Proofs.Stops
import Mathlib.Data.List.Rotate

set_option autoImplicit false

/-! # Searching goes round

A search examines the rows one after another from just after its start, past the end on from the top,
and its start last. That is the reading order rotated, and what is found is the first key in it that
the text finds. So searching again from each result goes round the keys that the text finds, and
comes to each of them once before it is back (`search_goes_round`). -/

universe u v

namespace Listbox

/-- Around a list from just after `k`: who is first there, and how the list falls apart at it. -/
theorem exists_turn {α : Type u} (xs ys : List α) (k : α) :
    ∃ xs' a ys', xs ++ k :: ys = xs' ++ a :: ys' ∧ ys ++ xs ++ [k] = a :: (ys' ++ xs') := by
  cases ys with
  | cons a ys => exact ⟨xs ++ [k], a, ys, List.append_cons .., by simp⟩
  | nil =>
    cases xs with
    | cons a xs => exact ⟨[], a, xs ++ [k], rfl, by simp⟩
    | nil => exact ⟨[], k, [], rfl, rfl⟩

/-- Reading a list at all its positions. -/
theorem filterMap_getElem?_range {α : Type u} (l : List α) :
    (List.range l.length).filterMap (fun i => l[i]?) = l := by
  induction l with
  | nil => rfl
  | cons a as ih =>
    rw [List.length_cons, List.range_succ_eq_map, List.filterMap_cons, List.filterMap_map]
    exact congrArg (a :: ·) ih

variable {K : Type u} {T : Type v} [DecidableEq K] [Hashable K]

/-! ## Going round -/

namespace Collection

variable {c : Collection K T} {before after : List K} {k : K}

/-- Going round from a position is reading the rotated list. -/
theorem round_eq_rotate (c : Collection K T) (i : Nat) : c.round i = c.toList.rotate i := by
  have hread : ∀ offset ∈ List.range c.size,
      c.at? ((i + offset) % c.size) = (c.toList.rotate i)[offset]? := by
    intro offset hoffset
    have hlt : offset < c.toList.length := List.mem_range.1 hoffset
    rw [List.getElem?_rotate hlt, at?_eq, length_toList, Nat.add_comm]
  rw [round, List.filterMap_congr hread, ← length_toList, ← List.length_rotate,
    filterMap_getElem?_range]

theorem map_key_round (c : Collection K T) (i : Nat) :
    (c.round i).map (·.key) = c.keys.rotate i := by
  rw [round_eq_rotate, List.map_rotate, keys]

/-- Just after a key, what comes after it is first and what comes before it last. -/
theorem keys_rotate_of_keys_eq (h : c.keys = before ++ k :: after) :
    c.keys.rotate (before.length + 1) = after ++ before ++ [k] := by
  have hcut : c.keys = (before ++ [k]) ++ after := h.trans (List.append_cons ..)
  rw [hcut, ← List.length_singleton (a := k), ← List.length_append, List.rotate_append_length_eq,
    List.append_assoc]

end Collection

namespace Navigator

variable {v : Navigator K T} {text : String} {start : Option K} {before after xs ys : List K}
variable {k t : K} {n : Nat}

/-! ## One search -/

/-- The keys that a text finds, in reading order. -/
def hits (v : Navigator K T) (text : String) : List K := v.collection.keys.filter (v.finds text)

/-- Some focusable row has a text that starts with this one. -/
def Matches (v : Navigator K T) (text : String) : Prop :=
  ∃ n ∈ v.collection.toList, v.isHit text n = true

theorem finds_iff : v.finds text k = true ↔
    text ≠ "" ∧ ∃ n ∈ v.collection.toList, n.key = k ∧ v.isHit text n = true := by
  simp only [finds, Bool.and_eq_true, Bool.not_eq_true', String.isEmpty_eq_false_iff,
    Option.any_eq_true, Collection.get?_eq_some_iff, and_assoc]

theorem offers_of_finds (h : v.finds text k = true) : v.Offers k := by
  obtain ⟨-, n, hn, hkey, hhit⟩ := finds_iff.1 h
  exact ⟨n, hn, hkey, (Bool.and_eq_true_iff.1 hhit).1⟩

theorem mem_hits_iff : k ∈ v.hits text ↔ v.finds text k = true := by
  rw [hits, List.mem_filter, and_iff_right_iff_imp]
  intro hk
  obtain ⟨-, n, hn, rfl, -⟩ := finds_iff.1 hk
  exact List.mem_map_of_mem hn

theorem finds_eq_decide (k : K) : v.finds text k = decide (k ∈ v.hits text) := by
  rw [Bool.eq_iff_iff, decide_eq_true_iff, mem_hits_iff]

/-- A search examines the keys in the order in which it goes round. -/
theorem search?_eq_find? (v : Navigator K T) (text : String) (start : Option K) :
    v.search? text start =
      (v.collection.keys.rotate ((start.bind v.collection.get?).elim 0 (·.index + 1))).find?
        (v.finds text) := by
  cases htext : text.isEmpty with
  | true =>
    have hnone : ∀ k, v.finds text k = false := fun k => by rw [finds, htext]; rfl
    rw [search?, if_pos htext, funext hnone, eq_comm, List.find?_eq_none]
    exact fun _ _ => Bool.false_ne_true
  | false =>
    have hfinds : ∀ i, ∀ n ∈ v.collection.round i, v.finds text n.key = v.isHit text n := by
      intro i n hn
      rw [finds, htext, Bool.not_false, Bool.true_and]
      exact Collection.any_get?_key (Collection.mem_of_mem_round hn)
    rw [search?, if_neg (Bool.eq_false_iff.1 htext), ← Collection.map_key_round, List.find?_map,
      Function.comp_def, List.find?_congr (hfinds _)]

/-- Without a known start the search begins at the top. -/
theorem search?_of_unknown (h : ∀ k, start = some k → v.collection.contains k = false) :
    v.search? text start = v.collection.keys.find? (v.finds text) := by
  have hnone : start.bind v.collection.get? = none := by
    rw [Option.bind_eq_none_iff]
    intro k hk
    rw [Collection.get?, Collection.position?_eq_none (h k hk), Option.bind_none]
  rw [search?_eq_find?, hnone, Option.elim_none, List.rotate_zero]

/-- From a known start the rows after it come first, and the start last. -/
theorem search?_of_keys_eq (h : v.collection.keys = before ++ k :: after) :
    v.search? text (some k) = (after ++ before ++ [k]).find? (v.finds text) := by
  have hposition := Collection.position?_eq_some_iff.2 (Collection.keys_getElem?_of_keys_eq h)
  rw [Collection.position?_eq_map_index] at hposition
  obtain ⟨n, hn, hindex⟩ := Option.map_eq_some_iff.1 hposition
  rw [search?_eq_find?, Option.bind_some, hn, Option.elim_some, hindex,
    Collection.keys_rotate_of_keys_eq h]

theorem finds_of_search? (h : v.search? text start = some t) : v.finds text t = true := by
  rw [search?_eq_find?] at h
  exact List.find?_some h

/-- **Failing.** A search fails if there is nothing to find, wherever it starts. -/
theorem search?_eq_none_iff : v.search? text start = none ↔ text = "" ∨ ¬ v.Matches text := by
  rw [search?_eq_find?, List.find?_eq_none]
  simp only [List.mem_rotate]
  constructor
  · intro hnone
    rw [or_iff_not_imp_left]
    rintro htext ⟨n, hn, hhit⟩
    exact hnone n.key (List.mem_map_of_mem hn) (finds_iff.2 ⟨htext, n, hn, rfl, hhit⟩)
  · rintro hnone k - hk
    obtain ⟨htext, n, hn, -, hhit⟩ := finds_iff.1 hk
    exact hnone.elim htext fun hnothing => hnothing ⟨n, hn, hhit⟩

/-! ## Searching again -/

/-- The keys that `n` searches find, the first from `k` and each other from what the one before it
has found. -/
def searchAgain (v : Navigator K T) (text : String) : Nat → K → List K
  | 0, _ => []
  | n + 1, k =>
    match v.search? text (some k) with
    | none => []
    | some t => t :: v.searchAgain text n t

/-- From a key that the text finds, a search goes to the next one around. -/
theorem search?_of_hits_eq (h : v.hits text = xs ++ k :: ys) :
    v.search? text (some k) = (ys ++ xs ++ [k]).head? := by
  obtain ⟨before, after, hsplit, hxs, hk, hys⟩ := exists_of_filter_eq_append_cons h
  have haround : (after ++ before ++ [k]).filter (v.finds text) = ys ++ xs ++ [k] := by
    rw [List.filter_append, List.filter_append, hys, hxs, List.filter_singleton, hk, cond_true]
  rw [search?_of_keys_eq hsplit, ← List.head?_filter, haround]

/-- **Going round.** Searching again from each result goes through the keys that the text finds, in
the order of the rows from `k` on and past the end. -/
theorem searchAgain_of_hits_eq (h : v.hits text = xs ++ k :: ys) (hn : n ≤ (v.hits text).length) :
    v.searchAgain text n k = (ys ++ xs ++ [k]).take n := by
  induction n generalizing xs k ys with
  | zero => rfl
  | succ n ih =>
    -- one search leads to the next hit around, and the others go round from there
    obtain ⟨xs', a, ys', hturn, haround⟩ := exists_turn xs ys k
    have hagain : v.hits text = xs' ++ a :: ys' := h.trans hturn
    have hlen : n ≤ (ys' ++ xs').length := by
      rw [hagain, List.length_append, List.length_cons] at hn
      rw [List.length_append]
      omega
    rw [searchAgain, search?_of_hits_eq h, haround, List.head?_cons, List.take_succ_cons]
    change a :: v.searchAgain text n a = _
    rw [ih hagain (Nat.le_of_succ_le hn), List.take_append_of_le_length hlen]

/-- **Searching.** A search fails exactly if the text is empty or no focusable row starts with it.
Otherwise it finds the first key that the text finds in the order of the rows: from the top if its
start is absent or unknown, and otherwise from just after its start, past the end on from the top, with
the start itself last. What is found, the text finds. And from any key that the text finds, as many
searches as there are such keys come to each of them once, in the order of the rows, and back. -/
theorem search_goes_round (v : Navigator K T) (text : String) :
    (∀ start, v.search? text start = none ↔ text = "" ∨ ¬ v.Matches text) ∧
    (∀ start, (∀ k, start = some k → v.collection.contains k = false) →
      v.search? text start = v.collection.keys.find? (v.finds text)) ∧
    (∀ before k after, v.collection.keys = before ++ k :: after →
      v.search? text (some k) = (after ++ before ++ [k]).find? (v.finds text)) ∧
    (∀ start t, v.search? text start = some t → v.finds text t = true) ∧
    (v.hits text).Nodup ∧
    (∀ xs k ys, v.hits text = xs ++ k :: ys →
      v.searchAgain text (v.hits text).length k = ys ++ xs ++ [k]) := by
  refine ⟨fun _ => search?_eq_none_iff, fun _ => search?_of_unknown, fun _ _ _ => search?_of_keys_eq,
    fun _ _ => finds_of_search?, v.collection.nodup_keys.filter _, fun xs k ys h => ?_⟩
  rw [searchAgain_of_hits_eq h (Nat.le_refl _), h]
  exact List.take_of_length_le (by simp; omega)

/-- Fruit, some of it under a section, and one row disabled. -/
def orchard : Forest (Entry Nat Unit) :=
  .tree (.item 1 "pear" ()) .nil
    (.tree (.group 2 "plums")
      (.tree (.item 3 "prune" ()) .nil
        (.leaf { Entry.item 4 "purple" () with disabled := true }))
      (.leaf (.item 5 "apple" ())))

/-- Moves over the fruit, with searches by code point. -/
def amongFruit (c : Collection Nat Unit) : Navigator Nat Unit := { new c {} with collator := .exact }

section Orchard

variable {c : Collection Nat Unit} (hc : Collection.ofForest orchard = .ok c)

theorem isHit_amongFruit (c : Collection Nat Unit) (text : String) :
    (amongFruit c).isHit text = fun n =>
      (n.isItem && !n.disabled) && Collator.exact.isPrefixOf text n.text := by
  funext n
  simp [isHit, isFocusable, isDisabled, amongFruit, new]

include hc

theorem keys_amongFruit : (amongFruit c).collection.keys = [1, 2, 3, 4, 5] :=
  Collection.keys_ofForest hc

theorem hits_amongFruit : (amongFruit c).hits "p" = [1, 3] := by
  have hnodes : (amongFruit c).hits "p" = (c.toList.filter ((amongFruit c).isHit "p")).map (·.key) :=
    c.filter_any_get?_keys ((amongFruit c).isHit "p")
  rw [hnodes, isHit_amongFruit, Collection.toList_ofForest hc]
  decide

end Orchard

/-- From the disabled row past the end, from an unknown key at the top, and around both hits. -/
theorem search_goes_round_orchard :
    ∃ c, Collection.ofForest orchard = .ok c ∧
      let v := amongFruit c
      v.collection.keys = [1, 2, 3] ++ 4 :: [5] ∧ v.search? "p" (some 4) = some 1 ∧
        v.collection.contains 7 = false ∧ v.search? "p" (some 7) = some 1 ∧
        v.hits "p" = [1, 3] ∧ v.searchAgain "p" 2 1 = [3, 1] := by
  obtain ⟨c, hc⟩ := Collection.exists_ofForest_ok_iff.2 (show orchard.keys.Nodup by decide)
  have hhits := hits_amongFruit hc
  have hunknown : (amongFruit c).collection.contains 7 = false := by
    rw [← Bool.not_eq_true, Collection.contains_iff_mem_keys, keys_amongFruit hc]
    decide
  obtain ⟨-, htop, hfrom, -, -, hround⟩ := search_goes_round (amongFruit c) "p"
  refine ⟨c, hc, keys_amongFruit hc, ?_, hunknown, ?_, hhits, ?_⟩
  · refine (hfrom [1, 2, 3] 4 [5] (keys_amongFruit hc)).trans ?_
    rw [funext finds_eq_decide, hhits]
    decide
  · refine (htop (some 7) fun k hk => Option.some.inj hk ▸ hunknown).trans ?_
    rw [funext finds_eq_decide, hhits, keys_amongFruit hc]
    decide
  · have haround := hround [] 1 [3] hhits
    rw [hhits] at haround
    exact haround

end Navigator

end Listbox
