import Listbox.Collection.Lemmas

set_option autoImplicit false

/-! # What a search finds

Searching forward finds the first node of a kind from some position on, and searching backward the
last one before it. Nodes come in the order of their indices (`pairwise_index_toList`), so both are
put in terms of indices here, and the list that is searched does not appear. -/

universe u v

namespace Listbox

/-- The first of an ordered list is the member that none precedes. -/
theorem head?_eq_some_iff_of_pairwise {α : Type u} {r : α → α → Prop} {xs : List α}
    (hr : ∀ a b, r a b → ¬ r b a) (h : xs.Pairwise r) {x : α} :
    xs.head? = some x ↔ x ∈ xs ∧ ∀ y ∈ xs, ¬ r y x := by
  cases xs with
  | nil => simp
  | cons a as =>
    obtain ⟨hfirst, -⟩ := List.pairwise_cons.1 h
    rw [List.head?_cons, Option.some.injEq]
    constructor
    · rintro rfl
      refine ⟨List.mem_cons_self, fun y hy hyx => ?_⟩
      rcases List.mem_cons.1 hy with rfl | hy
      · exact hr y y hyx hyx
      · exact hr a y (hfirst y hy) hyx
    · rintro ⟨hx, hleast⟩
      rcases List.mem_cons.1 hx with hx | hx
      · exact hx.symm
      · exact absurd (hfirst x hx) (hleast a List.mem_cons_self)

namespace Collection

variable {K : Type u} {T : Type v} [DecidableEq K] [Hashable K]
variable {c : Collection K T} {p : Node K T → Bool} {i : Nat} {n : Node K T}

/-! ## Positions in the reading order -/

/-- Nodes come in the order of their indices. -/
theorem pairwise_index_toList (c : Collection K T) :
    c.toList.Pairwise fun x y => x.index < y.index := by
  obtain ⟨f, hf⟩ := c.exists_ofForest
  have hindex : c.toList.map (·.index) = List.range' 0 f.size := by
    rw [toList_ofForest hf, Forest.nodes, Forest.map_index_layOut]
  rw [← List.pairwise_map, hindex]
  exact List.pairwise_lt_range'

/-- A node stands at its index. -/
theorem getElem?_toList_eq_some_iff : c.toList[i]? = some n ↔ n ∈ c.toList ∧ n.index = i := by
  have hindex : ∀ j, c.toList[j]? = some n → n.index = j := fun j hj =>
    index_at? (by rw [at?_eq, hj])
  constructor
  · intro hi
    exact ⟨List.mem_of_getElem? hi, hindex i hi⟩
  · rintro ⟨hn, rfl⟩
    obtain ⟨j, hj⟩ := List.mem_iff_getElem?.1 hn
    rw [hindex j hj, hj]

theorem mem_take_iff : n ∈ c.toList.take i ↔ n ∈ c.toList ∧ n.index < i := by
  simp only [List.mem_iff_getElem? (l := c.toList.take i), List.getElem?_take,
    Option.ite_none_right_eq_some, getElem?_toList_eq_some_iff]
  constructor
  · rintro ⟨_, hi, hn, rfl⟩
    exact ⟨hn, hi⟩
  · rintro ⟨hn, hi⟩
    exact ⟨n.index, hi, hn, rfl⟩

theorem mem_drop_iff : n ∈ c.toList.drop i ↔ n ∈ c.toList ∧ i ≤ n.index := by
  simp only [List.mem_iff_getElem? (l := c.toList.drop i), List.getElem?_drop,
    getElem?_toList_eq_some_iff]
  constructor
  · rintro ⟨j, hn, hindex⟩
    exact ⟨hn, by omega⟩
  · rintro ⟨hn, hi⟩
    exact ⟨n.index - i, hn, by omega⟩

/-- Cutting nodes out of the reading order is asking for their indices. -/
theorem mem_drop_take_iff {first last : Nat} :
    n ∈ (c.toList.take (last + 1)).drop first ↔
      n ∈ c.toList ∧ first ≤ n.index ∧ n.index ≤ last := by
  rw [List.mem_iff_getElem?]
  simp only [List.getElem?_drop, List.getElem?_take, Option.ite_none_right_eq_some,
    getElem?_toList_eq_some_iff]
  constructor
  · rintro ⟨j, hj, hn, hindex⟩
    exact ⟨hn, by omega, by omega⟩
  · rintro ⟨hn, hfirst, hlast⟩
    exact ⟨n.index - first, by omega, hn, by omega⟩

/-! ## Forward and backward -/

/-- **Forward.** The first node with `p` from a position on. -/
theorem findFrom?_eq_some_iff : c.findFrom? p i = some n ↔
    (n ∈ c.toList ∧ p n = true ∧ i ≤ n.index) ∧
      ∀ x ∈ c.toList, p x = true → i ≤ x.index → n.index ≤ x.index := by
  have hpairwise := (c.pairwise_index_toList.drop (i := i)).filter p
  rw [findFrom?_eq_find?, ← List.head?_filter,
    head?_eq_some_iff_of_pairwise (fun _ _ => Nat.lt_asymm) hpairwise]
  simp only [List.mem_filter, mem_drop_iff, Nat.not_lt, and_imp]
  constructor
  · rintro ⟨⟨⟨hn, hi⟩, hp⟩, hleast⟩
    exact ⟨⟨hn, hp, hi⟩, fun x hx hpx hix => hleast x hx hix hpx⟩
  · rintro ⟨⟨hn, hp, hi⟩, hleast⟩
    exact ⟨⟨⟨hn, hi⟩, hp⟩, fun x hx hix hpx => hleast x hx hpx hix⟩

theorem findFrom?_eq_none_iff : c.findFrom? p i = none ↔
    ∀ x ∈ c.toList, p x = true → x.index < i := by
  rw [findFrom?_eq_find?, List.find?_eq_none]
  simp only [mem_drop_iff, and_imp]
  refine forall₂_congr fun x _ => ?_
  rw [← Nat.not_le, imp_not_comm]

/-- **Backward.** The last node with `p` before a position. -/
theorem findBefore?_eq_some_iff : c.findBefore? p i = some n ↔
    (n ∈ c.toList ∧ p n = true ∧ n.index < i) ∧
      ∀ x ∈ c.toList, p x = true → x.index < i → x.index ≤ n.index := by
  have hpairwise := (List.pairwise_reverse.2 (c.pairwise_index_toList.take (i := i))).filter p
  rw [findBefore?_eq_find?, ← List.head?_filter,
    head?_eq_some_iff_of_pairwise (fun _ _ => Nat.lt_asymm) hpairwise]
  simp only [List.mem_filter, List.mem_reverse, mem_take_iff, Nat.not_lt, and_imp]
  constructor
  · rintro ⟨⟨⟨hn, hi⟩, hp⟩, hgreatest⟩
    exact ⟨⟨hn, hp, hi⟩, fun x hx hpx hix => hgreatest x hx hix hpx⟩
  · rintro ⟨⟨hn, hp, hi⟩, hgreatest⟩
    exact ⟨⟨⟨hn, hi⟩, hp⟩, fun x hx hix hpx => hgreatest x hx hpx hix⟩

theorem findBefore?_eq_none_iff : c.findBefore? p i = none ↔
    ∀ x ∈ c.toList, p x = true → i ≤ x.index := by
  rw [findBefore?_eq_find?, List.find?_eq_none]
  simp only [List.mem_reverse, mem_take_iff, and_imp]
  refine forall₂_congr fun x _ => ?_
  rw [← Nat.not_lt, imp_not_comm]

theorem mem_of_findFrom? (h : c.findFrom? p i = some n) : n ∈ c.toList ∧ p n := by
  obtain ⟨⟨hn, hp, -⟩, -⟩ := findFrom?_eq_some_iff.1 h
  exact ⟨hn, hp⟩

theorem mem_of_findBefore? (h : c.findBefore? p i = some n) : n ∈ c.toList ∧ p n := by
  obtain ⟨⟨hn, hp, -⟩, -⟩ := findBefore?_eq_some_iff.1 h
  exact ⟨hn, hp⟩

theorem mem_of_mem_round (h : n ∈ c.round i) : n ∈ c.toList := by
  obtain ⟨offset, -, hn⟩ := List.mem_filterMap.1 h
  rw [at?_eq] at hn
  exact List.mem_of_getElem? hn

end Collection

end Listbox
