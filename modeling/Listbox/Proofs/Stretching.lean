import Listbox.Proofs.Announcement
import Listbox.Proofs.Range

set_option autoImplicit false

/-! # Where a stretched range leaves the selection

A range has a start and an end. Stretching moves the end: the live keys between the start and the
old end give way, the selectable rows between the start and the new end come in, and all others stay
where they are. `Redrawn` says this as one equation for the keys in order and, row by row, as the
difference and the union that it amounts to; `extend_redraws` says that the stored and the resolved
selection become just that, whatever the model stored.

Two cases remain where many rows may be selected: a range out of everything is its end alone, and a
row from elsewhere is no end at all. -/

universe u v

namespace Listbox.SelectionModel

variable {K : Type u} {T : Type v} [DecidableEq K] [Hashable K]
variable {m : SelectionModel K T} {s next : KeySet K} {a t k : K}

/-- Where a range to `t` starts when the keys `s` are stored: at their anchor, if that can be
selected, or else at the focused row, if it is there, or else at `t`. -/
def startFrom (m : SelectionModel K T) (s : KeySet K) (t : K) : K :=
  ((s.anchor.filter m.canSelect).or (m.focus.key.filter m.collection.contains)).getD t

/-- The range of the keys `live`, which starts at `a`, has been drawn to `t`, and they have become
`next`. -/
structure Redrawn (m : SelectionModel K T) (live : KeySet K) (a t : K) (next : KeySet K) :
    Prop where
  /-- The keys that stay keep their order, and the others follow in reading order. -/
  items : next.items = m.spared live a ++
    (m.collection.keys.filter fun k => m.canSelect k && m.isBetween a t k).filter fun k =>
      k ∉ m.spared live a
  /-- Out goes what is between the start and the old end, if there is one, and in comes what is
  between the start and the new end. -/
  member : ∀ k, k ∈ next.items ↔
    (k ∈ live.items ∧ ∀ last, live.current = some last → ¬ m.isBetween a last k) ∨
      m.canSelect k ∧ m.isBetween a t k
  apart : ∀ k, (∀ last, live.current = some last → ¬ m.isBetween a last k) →
    ¬ m.isBetween a t k → (k ∈ next.items ↔ k ∈ live.items)
  anchor : next.anchor = some a
  current : next.current = some t

/-! ## The stretched keys -/

/-- An anchor that can be selected is in the collection, so only the focus need be looked for. -/
theorem rangeStart_filter (m : SelectionModel K T) (s : KeySet K) (t : K) :
    m.rangeStart (s.filter m.canSelect) t = m.startFrom s t := by
  unfold rangeStart startFrom
  rw [KeySet.anchor_filter]
  cases h : s.anchor.filter m.canSelect with
  | none => rfl
  | some a =>
    have ha : m.collection.contains a :=
      contains_of_canSelect (Option.filter_eq_some_iff.1 h).2
    simp [Option.filter, ha]

theorem filter_isBetween_selectableKeys (m : SelectionModel K T) (a t : K) :
    m.selectableKeys.filter (m.isBetween a t) =
      m.collection.keys.filter fun k => m.canSelect k && m.isBetween a t k := by
  rw [selectableKeys_eq_filter, List.filter_filter]
  exact List.filter_congr fun k _ => Bool.and_comm ..

theorem redrawn_stretched (m : SelectionModel K T) (t : K) :
    m.Redrawn m.liveKeys (m.rangeStart m.liveKeys t) t (m.stretched t) where
  items := by rw [items_stretched, filter_isBetween_selectableKeys]
  member _ := mem_stretched_iff
  apart k hold hnew := by
    rw [mem_stretched_iff]
    constructor
    · rintro (⟨hk, -⟩ | ⟨-, hin⟩)
      · exact hk
      · exact absurd hin hnew
    · exact fun hk => Or.inl ⟨hk, hold⟩
  anchor := rfl
  current := rfl

/-- Everything that the stretched keys mention is in the collection. -/
theorem filter_stretched (ht : m.collection.contains t) :
    (m.stretched t).filter m.collection.contains = m.stretched t := by
  refine KeySet.filter_eq_self fun k hk => ?_
  simp only [KeySet.mentioned, anchor_stretched, current_stretched, Option.toList_some,
    List.mem_append, List.mem_singleton] at hk
  rcases hk with (hk | rfl) | rfl
  · exact contains_of_canSelect (canSelect_of_mem_stretched hk)
  · exact m.contains_rangeStart m.liveKeys ht
  · exact ht

theorem filter_single (hk : m.collection.contains k) :
    (KeySet.single k).filter m.collection.contains = .single k := by
  refine KeySet.filter_eq_self fun k' hk' => ?_
  have hsame : k' = k := by simpa [KeySet.mentioned, KeySet.single] using hk'
  rw [hsame]
  exact hk

/-! ## The gesture -/

/-- What a gesture stores without an owner is what is selected then. -/
theorem selectedKeys_gesture {g : Gesture K} (h : (m.gesture g).model.selection = .keys next)
    (hknown : next.filter m.collection.contains = next) :
    (m.gesture g).model.selectedKeys = next := by
  rw [selectedKeys, h, (sameSetting_gesture m g).resolve, resolve, hknown]

/-- **Stretching.** Where many rows may be selected and nobody owns the selection, moving the end of
the range to a row of the collection redraws it, from everything it selects the row alone, and to a
row from elsewhere it does nothing. -/
theorem extend_redraws (hfree : m.controlled = false) (hmode : m.mode = .multiple) :
    (∀ s t, m.selection = .keys s → m.collection.contains t →
      ∃ next, (m.extend t).model.selection = .keys next ∧ (m.extend t).model.selectedKeys = next ∧
        m.Redrawn (s.filter m.canSelect) (m.startFrom s t) t next) ∧
    (∀ t, m.selection = .all → m.canSelect t →
      (m.extend t).model.selection = .keys (.single t) ∧
        (m.extend t).model.selectedKeys = .single t) ∧
    ∀ t, ¬ m.collection.contains t → m.extend t = m.still := by
  refine ⟨fun s t hs ht => ?_, fun t hall ht => ?_, fun t ht => ?_⟩
  · have hstored : (m.gesture (.extend t)).model.selection = .keys (m.stretched t) := by
      refine (Proposes.stretch t hmode ht ?_).selection_gesture hfree
      rw [hs]
      exact nofun
    refine ⟨m.stretched t, hstored, selectedKeys_gesture hstored (filter_stretched ht), ?_⟩
    rw [← liveKeys_of_keys hs, ← rangeStart_filter, ← liveKeys_of_keys hs]
    exact m.redrawn_stretched t
  · have hknown := contains_of_canSelect ht
    have hstored : (m.gesture (.extend t)).model.selection = .keys (.single t) :=
      (Proposes.extendAll t hmode hknown hall).selection_gesture hfree
    exact ⟨hstored, selectedKeys_gesture hstored (filter_single hknown)⟩
  · simp [extend, hmode, ht]

/-- A row, a section with an enabled and a disabled row in it, a link, and a last row. -/
def mixedRows : Forest (Entry Nat Unit) :=
  .tree (.item 1 "one" ()) .nil
    (.tree (.group 10 "ten")
      (.tree (.item 2 "two" ()) .nil
        (.tree { Entry.item 3 "three" () with disabled := true } .nil .nil))
      (.tree { Entry.item 4 "four" () with href := some "4" } .nil
        (.tree (.item 5 "five" ()) .nil .nil)))

/-- The choices under which links are only for following. -/
def followOnly (mode : SelectionMode) : SelectionConfig Nat := { mode, linkBehavior := .override }

theorem canSelect_mixedRows {c : Collection Nat Unit} (hc : Collection.ofForest mixedRows = .ok c)
    (k : Nat) :
    (SelectionModel.new ⟨0, c⟩ (followOnly .multiple)).canSelect k = decide (k ∈ [1, 2, 5]) := by
  rw [Bool.eq_iff_iff, canSelect_new_iff hc, decide_eq_true_eq]
  constructor
  · rintro ⟨-, -, n, hn, rfl, hitem, henabled, hlink⟩
    have hrows : ∀ n ∈ mixedRows.nodes, n.isItem = true → n.disabled = false →
        (n.isLink = true → False) → n.key ∈ [1, 2, 5] := by decide
    exact hrows n hn hitem henabled fun h => hlink h rfl
  · intro hk
    have hrows : ∀ k ∈ [1, 2, 5], ∃ n ∈ mixedRows.nodes,
        n.key = k ∧ n.isItem = true ∧ n.disabled = false ∧ (n.isLink = true → False) := by decide
    obtain ⟨n, hn, hkey, hitem, henabled, hlink⟩ := hrows k hk
    exact ⟨nofun, nofun, n, hn, hkey, hitem, henabled, fun h => (hlink h).elim⟩

/-- The range from the second row leads to the last one and no longer to the first: the last row was
selected and stays in front, the second comes in, and what lies between cannot be selected. -/
theorem extend_redraws_mixedRows :
    ∃ c, Collection.ofForest mixedRows = .ok c ∧
      let m := { SelectionModel.new ⟨0, c⟩ (followOnly .multiple) with
        selection := .keys ⟨[5, 1], by decide, some 2, some 1⟩ }
      m.controlled = false ∧ m.mode = .multiple ∧ m.collection.contains 5 ∧
        ∃ next, (m.extend 5).model.selection = .keys next ∧ next.items = [5, 2] ∧
          next.anchor = some 2 ∧ next.current = some 5 := by
  obtain ⟨c, hc⟩ := Collection.exists_ofForest_ok_iff.2 (show mixedRows.keys.Nodup by decide)
  let stored : KeySet Nat := ⟨[5, 1], by decide, some 2, some 1⟩
  let m := { SelectionModel.new ⟨0, c⟩ (followOnly .multiple) with selection := .keys stored }
  have hcan : m.canSelect = fun k => decide (k ∈ [1, 2, 5]) :=
    funext (canSelect_mixedRows hc)
  have hkeys : m.collection.keys = [1, 10, 2, 3, 4, 5] := (Collection.keys_ofForest hc).trans rfl
  have hfive : m.collection.contains 5 := by
    rw [Collection.contains_iff_mem_keys, hkeys]
    decide
  obtain ⟨next, hnext, -, hdrawn⟩ := (extend_redraws (m := m) rfl rfl).1 stored 5 rfl hfive
  have hstart : m.startFrom stored 5 = 2 := by
    rw [startFrom, hcan]
    rfl
  rw [hstart] at hdrawn
  refine ⟨c, hc, rfl, rfl, hfive, next, hnext, ?_, hdrawn.anchor, hdrawn.current⟩
  rw [hdrawn.items, hkeys]
  simp only [spared, isBetween, Collection.position?_eq_idxOf?, hkeys, hcan]
  rfl

end Listbox.SelectionModel
