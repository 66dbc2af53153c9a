import Listbox.Proofs.Ownership
import Listbox.Proofs.Range

set_option autoImplicit false

/-! # Questions about the selection

Whether a row is selected, whether anything is, whether everything is, and which selected row comes
first or last: each of these is worked out in a way of its own, from the stored selection, the mode
and the collection. They are about one thing all the same. `Covers` says which keys a selection comes
to, and every answer is put in terms of it.

The mode decides nothing that the stored selection does not decide already: where nothing may be
selected a consistent model stores no key. -/

universe u v

namespace Listbox

variable {K : Type u} {T : Type v} [DecidableEq K] [Hashable K]

namespace SelectionModel

variable {m : SelectionModel K T} {sel : Selection K} {k : K}

/-! ## What a selection comes to -/

/-- The selection comes to the key among others: "all" to every key that can be selected, and a key
set to its members in the collection. -/
def Covers (m : SelectionModel K T) : Selection K → K → Prop
  | .all, k => m.canSelect k
  | .keys s, k => k ∈ s.items ∧ m.collection.contains k

theorem mem_items_resolve : k ∈ (m.resolve sel).items ↔ m.Covers sel k := by
  cases sel with
  | all => simp [resolve, Covers, KeySet.ofListHashed_eq_ofList, mem_selectableKeys_iff]
  | keys s => simp [resolve, Covers, List.mem_filter]

theorem Covers.contains (h : m.Covers sel k) : m.collection.contains k := by
  cases sel with
  | all => exact contains_of_canSelect h
  | keys s => exact h.2

/-- If one key is stored, it is all that is selected. -/
theorem mem_selectedKeys_of_filter {p : K → Bool} {x : K}
    (hs : m.selection = .keys ((KeySet.ofList [k]).filter p)) (hp : p k)
    (hk : m.collection.contains k) : x ∈ m.selectedKeys.items ↔ x = k := by
  rw [selectedKeys, mem_items_resolve, hs, Covers, KeySet.items_filter, List.mem_filter,
    KeySet.mem_items_ofList, List.mem_singleton, and_assoc]
  refine and_iff_left_of_imp ?_
  rintro rfl
  exact ⟨hp, hk⟩

/-- **Rows.** If the mode allows the stored selection, the selected rows are those that it covers. -/
theorem isSelected_iff (h : m.mode.Allows m.selection) :
    m.isSelected k ↔ m.Covers m.selection k := by
  unfold isSelected
  by_cases hmode : m.mode = .none
  · rw [hmode] at h
    obtain ⟨s, hs, hempty⟩ := h
    simp [hmode, hs, Covers, hempty]
  · cases hsel : m.selection with
    | all => simp [hmode, Covers]
    | keys s => simp [hmode, Covers]

theorem isSelectionEqual_iff (sel : Selection K) :
    m.isSelectionEqual sel ↔ ∀ k, m.Covers m.selection k ↔ m.Covers sel k := by
  unfold isSelectionEqual selectedKeys
  rw [KeySet.sameKeysHashed_iff]
  simp only [mem_items_resolve]

/-! ## Nothing and everything -/

theorem isEmpty_iff_of_keys {s : KeySet K} (h : m.selection = .keys s) :
    m.isEmpty ↔ m.selectedKeys.items = [] := by
  simp [isEmpty, selectedKeys, resolve, h]

/-- **Everything.** All is selected if something is, and all that can be. -/
theorem isSelectAll_iff (h : m.mode.Allows m.selection) :
    m.isSelectAll ↔ m.isEmpty = false ∧ ∀ k ∈ m.selectableKeys, m.isSelected k := by
  unfold isSelectAll
  rw [Bool.and_eq_true, Bool.not_eq_true']
  refine and_congr_right fun _ => ?_
  simp only [isSelected_iff h, mem_selectableKeys_iff]
  cases hsel : m.selection with
  | all => simp [Covers]
  | keys s =>
    have hnodes : (∀ n ∈ m.selectableNodes, n.key ∈ s.items) ↔
        ∀ k ∈ m.selectableKeys, k ∈ s.items := by simp [selectableKeys]
    simp only [List.all_eq_true, Std.HashSet.contains_ofList, List.contains_iff_mem]
    rw [hnodes]
    constructor
    · intro hall k hk
      exact ⟨hall k (mem_selectableKeys_iff.2 hk), contains_of_canSelect hk⟩
    · intro hall k hk
      exact (hall k (mem_selectableKeys_iff.1 hk)).1

/-! ## First and last -/

theorem mem_selectedNodes_iff {n : Node K T} :
    n ∈ m.selectedNodes ↔
      n ∈ m.collection.toList ∧ n.isItem = true ∧ m.isSelected n.key := by
  unfold selectedNodes isSelected
  by_cases hmode : m.mode = .none
  · simp [hmode]
  · cases hsel : m.selection with
    | all => simp [hmode, List.mem_filter]
    | keys s =>
      have hcontains : n ∈ m.collection.toList → m.collection.contains n.key := fun hn =>
        Collection.contains_iff_mem_keys.2 (List.mem_map_of_mem hn)
      simp only [hmode, if_false, List.mem_filter, Std.HashSet.contains_ofList, Bool.and_eq_true,
        List.contains_iff_mem, KeySet.contains_iff, bne_iff_ne, ne_eq, not_false_eq_true, true_and]
      constructor
      · rintro ⟨hn, hitem, hk⟩
        exact ⟨hn, hitem, hk, hcontains hn⟩
      · rintro ⟨hn, hitem, hk, -⟩
        exact ⟨hn, hitem, hk⟩

/-- The node is a selected item. -/
def SelectsItem (m : SelectionModel K T) (n : Node K T) : Prop :=
  n ∈ m.collection.toList ∧ n.isItem = true ∧ n.key ∈ m.selectedKeys.items

theorem mem_selectedNodes_iff_selectsItem (h : m.mode.Allows m.selection) {n : Node K T} :
    n ∈ m.selectedNodes ↔ m.SelectsItem n := by
  unfold SelectsItem selectedKeys
  rw [mem_selectedNodes_iff, mem_items_resolve, isSelected_iff h]

theorem pairwise_index_selectedNodes (m : SelectionModel K T) :
    m.selectedNodes.Pairwise fun x y => x.index < y.index := by
  unfold selectedNodes
  split
  · exact List.Pairwise.nil
  · split
    · exact m.collection.pairwise_index_toList.filter _
    · exact m.collection.pairwise_index_toList.filter _

theorem firstSelected?_eq_some_iff (h : m.mode.Allows m.selection) :
    m.firstSelected? = some k ↔
      ∃ n, m.SelectsItem n ∧ n.key = k ∧ ∀ n', m.SelectsItem n' → n.index ≤ n'.index := by
  have hhead : ∀ n, m.selectedNodes.head? = some n ↔
      m.SelectsItem n ∧ ∀ n', m.SelectsItem n' → n.index ≤ n'.index := by
    intro n
    rw [head?_eq_some_iff_of_pairwise (fun _ _ => Nat.lt_asymm) m.pairwise_index_selectedNodes]
    simp only [mem_selectedNodes_iff_selectsItem h, Nat.not_lt]
  simp only [firstSelected?, Option.map_eq_some_iff, hhead]
  exact exists_congr fun n => by rw [and_assoc, and_comm (a := n.key = k)]

/-- The only selected item comes first. -/
theorem firstSelected?_of_only {n : Node K T} (h : m.mode.Allows m.selection)
    (hn : n ∈ m.collection.toList) (hitem : n.isItem = true)
    (honly : ∀ x, x ∈ m.selectedKeys.items ↔ x = n.key) : m.firstSelected? = some n.key := by
  refine (firstSelected?_eq_some_iff h).2 ⟨n, ⟨hn, hitem, (honly n.key).2 rfl⟩, rfl, ?_⟩
  rintro n' ⟨hn', -, hselected⟩
  have hsame : n = n' := Collection.eq_of_key_eq hn hn' ((honly n'.key).1 hselected).symm
  exact Nat.le_of_eq (congrArg (·.index) hsame)

theorem lastSelected?_eq_some_iff (h : m.mode.Allows m.selection) :
    m.lastSelected? = some k ↔
      ∃ n, m.SelectsItem n ∧ n.key = k ∧ ∀ n', m.SelectsItem n' → n'.index ≤ n.index := by
  have hlast : ∀ n, m.selectedNodes.getLast? = some n ↔
      m.SelectsItem n ∧ ∀ n', m.SelectsItem n' → n'.index ≤ n.index := by
    intro n
    have hpairwise := List.pairwise_reverse.2 m.pairwise_index_selectedNodes
    rw [← List.head?_reverse,
      head?_eq_some_iff_of_pairwise (fun _ _ => Nat.lt_asymm) hpairwise]
    simp only [List.mem_reverse, mem_selectedNodes_iff_selectsItem h, Nat.not_lt]
  simp only [lastSelected?, Option.map_eq_some_iff, hlast]
  exact exists_congr fun n => by rw [and_assoc, and_comm (a := n.key = k)]

theorem selectedNodes_eq_nil_iff (h : m.mode.Allows m.selection) :
    m.selectedNodes = [] ↔ ∀ n, ¬ m.SelectsItem n := by
  simp only [List.eq_nil_iff_forall_not_mem, mem_selectedNodes_iff_selectsItem h]

/-! ## All of them together -/

/-- Every question is answered as the selected keys have it. -/
structure Concordant (m : SelectionModel K T) : Prop where
  covered : ∀ k, k ∈ m.selectedKeys.items ↔ m.Covers m.selection k
  selected : ∀ k, m.isSelected k ↔ k ∈ m.selectedKeys.items
  known : ∀ k ∈ m.selectedKeys.items, k ∈ m.collection.keys
  first : ∀ k, m.firstSelected? = some k ↔
    ∃ n, m.SelectsItem n ∧ n.key = k ∧ ∀ n', m.SelectsItem n' → n.index ≤ n'.index
  last : ∀ k, m.lastSelected? = some k ↔
    ∃ n, m.SelectsItem n ∧ n.key = k ∧ ∀ n', m.SelectsItem n' → n'.index ≤ n.index
  noFirst : m.firstSelected? = none ↔ ∀ n, ¬ m.SelectsItem n
  noLast : m.lastSelected? = none ↔ ∀ n, ¬ m.SelectsItem n
  everything : m.isSelectAll ↔ m.isEmpty = false ∧ ∀ k ∈ m.selectableKeys, m.isSelected k
  /-- "All" counts as something even where no row can be selected. -/
  nothing : ∀ s, m.selection = .keys s → (m.isEmpty ↔ m.selectedKeys.items = [])
  equal : ∀ sel, m.isSelectionEqual sel ↔ ∀ k, m.Covers m.selection k ↔ m.Covers sel k

theorem concordant_of_allows (h : m.mode.Allows m.selection) : m.Concordant where
  covered _ := mem_items_resolve
  selected _ := (isSelected_iff h).trans mem_items_resolve.symm
  known k hk := Collection.contains_iff_mem_keys.1 (mem_items_resolve.1 hk).contains
  first _ := firstSelected?_eq_some_iff h
  last _ := lastSelected?_eq_some_iff h
  noFirst := by simp [firstSelected?, ← selectedNodes_eq_nil_iff h]
  noLast := by simp [lastSelected?, ← selectedNodes_eq_nil_iff h]
  everything := isSelectAll_iff h
  nothing _ := isEmpty_iff_of_keys
  equal := isSelectionEqual_iff

/-- **Concord.** However a model is set up and whatever happens to it, all questions about its
selection are answered alike: row by row and as a set, at either end, as a whole, and in comparison
with any other selection. -/
theorem reachable_concordant (h : Built m) (ops : List (Operation K T)) :
    (m.run ops).model.Concordant :=
  concordant_of_allows (h.consistent.run ops).allows

/-- An owner goes on holding a row that has been disabled, and the row stays selected. -/
theorem reachable_concordant_twoRows :
    ∃ c, Collection.ofForest twoRows = .ok c ∧
      let m := (SelectionModel.new ⟨0, c⟩ { mode := .multiple }).controlledBy (.keys (.ofList [1]))
      let r := (m.run [.setDisabled [1]]).model
      Built m ∧ ¬ r.canSelect 1 ∧ r.isSelected 1 ∧ r.Concordant := by
  obtain ⟨c, hc⟩ := Collection.exists_ofForest_ok_iff.2 (show twoRows.keys.Nodup by decide)
  refine ⟨c, hc, ?_⟩
  intro m r
  have hbuilt : Built m := .controlledBy (.new ⟨0, c⟩ { mode := .multiple }) _
  have hr : r.Concordant := reachable_concordant hbuilt [.setDisabled [1]]
  have hmodel : r = { m with disabledKeys := Std.HashSet.ofList [1] } :=
    model_prune_of_controlled rfl
  have hk : (SelectionModel.new ⟨0, c⟩ { mode := .multiple }).canSelect 1 := by
    rw [canSelect_new_iff hc]
    decide
  refine ⟨hbuilt, ?_, ?_, hr⟩
  · rw [canSelect_iff, hmodel]
    simp
  · rw [hr.selected, hmodel]
    have hcontains : m.collection.contains 1 := contains_of_canSelect hk
    exact (mem_selectedKeys_of_filter rfl hk hcontains).2 rfl

end SelectionModel

end Listbox
