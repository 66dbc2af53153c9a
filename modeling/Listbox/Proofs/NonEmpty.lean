import Listbox.Proofs.Consistency
import Listbox.Proofs.Range

set_option autoImplicit false

/-! # Keeping something selected

A list may forbid that gestures take the last key away. Flipping a row and clearing look before they
act, selecting puts something in the place of what was there, and only stretching a range does
neither: it withdraws the old range and adds the new one, whatever is left. The new range alone
keeps the selection from becoming empty, and it does if one of its ends can be selected. So the
selection is lost exactly if a range is stretched over nothing that can be selected, and the old
range covers all there is. -/

universe u v

namespace Listbox.SelectionModel

variable {K : Type u} {T : Type v} [DecidableEq K] [Hashable K]
variable {m : SelectionModel K T} {g : Gesture K} {next : Selection K} {k : K}

/-- Stretching the range to `k` leaves nothing: no row of the new range can be selected, and the old
range covers all live keys. -/
structure Exhausts (m : SelectionModel K T) (k : K) : Prop where
  mode : m.mode = .multiple
  known : m.collection.contains k
  stored : m.selection ≠ .all
  bare : ∀ x, m.canSelect x → ¬ m.isBetween (m.rangeStart m.liveKeys k) k x
  covered : ∀ x ∈ m.liveKeys.items, ∃ last, m.liveKeys.current = some last ∧
    m.isBetween (m.rangeStart m.liveKeys k) last x

theorem isEmpty_stretched_iff :
    (m.stretched k).isEmpty ↔
      (∀ x, m.canSelect x → ¬ m.isBetween (m.rangeStart m.liveKeys k) k x) ∧
        ∀ x ∈ m.liveKeys.items, ∃ last, m.liveKeys.current = some last ∧
          m.isBetween (m.rangeStart m.liveKeys k) last x := by
  rw [KeySet.isEmpty_iff, List.eq_nil_iff_forall_not_mem]
  simp only [mem_stretched_iff, not_or, not_and, forall_and]
  rw [and_comm]
  refine and_congr_right fun _ => forall_congr' fun x => imp_congr_right fun _ => ?_
  simp

/-- A range that exhausts the selection is stored with nothing in it. -/
theorem isEmpty_extend_of_exhausts (hfree : m.controlled = false) (h : m.Exhausts k) :
    (m.extend k).model.selection.isEmpty = true := by
  rw [extend_eq_propose h.mode h.known h.stored, selection_propose, hfree]
  exact isEmpty_stretched_iff.2 ⟨h.bare, h.covered⟩

/-- Where the last key may not go, a gesture that does not choose the keys itself proposes no empty
set, unless it exhausts the selection. -/
theorem Proposes.not_isEmpty (h : m.Proposes g next) (hkeep : m.config.disallowEmpty = true)
    (hg : ∀ ks, g ≠ .select ks) (hrange : ∀ k, g = .extend k → ¬ m.Exhausts k) :
    next.isEmpty = false := by
  cases h with
  | replace k | exchange k | extendSingle k | extendAll k =>
    exact Selection.not_isEmpty_of_mem (k := k) (by simp)
  | switchOff k hk hsel hlive hlast =>
    -- of at least two live keys one is left
    have hsize : 0 < (m.liveKeys.erase k).items.length := by
      rw [KeySet.items_erase, List.length_erase_of_mem hlive]
      exact Nat.sub_pos_of_lt (hlast hkeep)
    obtain ⟨k', hk'⟩ := List.exists_mem_of_length_pos hsize
    exact Selection.not_isEmpty_of_mem (k := k') hk'
  | switchOn k =>
    exact Selection.not_isEmpty_of_mem (k := k) (by simp)
  | stretch k hmode hk hall =>
    refine Bool.eq_false_iff.2 fun hempty => hrange k rfl ?_
    obtain ⟨hbare, hcovered⟩ := isEmpty_stretched_iff.1 hempty
    exact ⟨hmode, hk, hall, hbare, hcovered⟩
  | select ks => exact absurd rfl (hg ks)
  | selectAll | allOn => rfl
  | clear hsome hempty | allOff _ hsome hempty => exact absurd hkeep hempty

/-- **Nothing is lost.** In a model without an owner that may not become empty and is not, a gesture
that does not choose the keys itself leaves something selected, exactly if it is not a range that
exhausts the selection. -/
theorem gesture_keeps_nonempty_iff (hfree : m.controlled = false)
    (hkeep : m.config.disallowEmpty = true) (hm : m.selection.isEmpty = false)
    (hg : ∀ ks, g ≠ .select ks) :
    (m.gesture g).model.selection.isEmpty = false ↔ ∀ k, g = .extend k → ¬ m.Exhausts k := by
  constructor
  · rintro hsome k rfl h
    have hempty := isEmpty_extend_of_exhausts hfree h
    rw [show (m.gesture (.extend k)).model = (m.extend k).model from rfl, hempty] at hsome
    cases hsome
  · intro hrange
    rcases gesture_cases m g with hstill | ⟨next, hnext, hprop⟩
    · rw [hstill]
      exact hm
    · rw [hprop, selection_propose, hfree]
      exact hnext.not_isEmpty hkeep hg hrange

/-- Of two rows something must stay selected, and only the first can be. The focus is on the
second. -/
def cornered (c : Collection Nat Unit) : SelectionModel Nat Unit :=
  SelectionModel.setFocusedKey (.new ⟨0, c⟩ { mode := .multiple, disallowEmpty := true })
    (some 2) none

section TwoRows

variable {c : Collection Nat Unit} (hc : Collection.ofForest twoRows = .ok c)

include hc

theorem contains_twoRows {k : Nat} (hk : k = 1 ∨ k = 2) : c.contains k := by
  rw [Collection.contains_iff_mem_keys, Collection.keys_ofForest hc]
  rcases hk with rfl | rfl <;> decide

theorem cornered_eq :
    cornered c =
      { SelectionModel.new ⟨0, c⟩ { mode := .multiple, disallowEmpty := true } with
        focus := { key := some 2 } } :=
  if_pos (contains_twoRows hc (Or.inr rfl))

theorem collection_cornered : (cornered c).collection = c := by
  rw [cornered_eq hc]
  rfl

theorem canSelect_cornered (k : Nat) : (cornered c).canSelect k ↔ k = 1 := by
  have hfocus : (cornered c).canSelect k =
      (SelectionModel.new ⟨0, c⟩ { mode := .multiple, disallowEmpty := true }).canSelect k := by
    rw [cornered_eq hc]
    rfl
  rw [hfocus, canSelect_new_iff hc]
  constructor
  · rintro ⟨-, -, n, hn, rfl, -, henabled, -⟩
    have hrows : ∀ n ∈ twoRows.nodes, n.disabled = false → n.key = 1 := by decide
    exact hrows n hn henabled
  · rintro rfl
    decide

theorem isBetween_cornered {a b k : Nat} (ha : a < 2) (hb : b < 2) (hk : k < 2) :
    (cornered c).isBetween (a + 1) (b + 1) (k + 1) ↔ min a b ≤ k ∧ k ≤ max a b := by
  have hrows : ∀ i < 2, twoRows.keys[i]? = some (i + 1) := by decide
  refine isBetween_iff_of_ofForest ?_ (hrows a ha) (hrows b hb) (hrows k hk)
  rw [collection_cornered hc]
  exact hc

theorem isBetween_cornered_one : (cornered c).isBetween 2 1 1 :=
  (isBetween_cornered hc (a := 1) (b := 0) (k := 0) (by decide) (by decide) (by decide)).2
    (by decide)

theorem not_isBetween_cornered_two : ¬ (cornered c).isBetween 2 2 1 := fun h =>
  absurd ((isBetween_cornered hc (a := 1) (b := 1) (k := 0) (by decide) (by decide)
    (by decide)).1 h) (by decide)

/-- The second row cannot be an anchor, so a range there starts from the focus all the same. -/
theorem rangeStart_cornered {m : SelectionModel Nat Unit} (hm : SameSetting (cornered c) m)
    (hlive : m.liveKeys.anchor = none) (k : Nat) : m.rangeStart m.liveKeys k = 2 := by
  refine rangeStart_of_focus hlive ?_ ?_
  · rw [hm.focus, cornered_eq hc]
  · rw [hm.collection, collection_cornered hc]
    exact contains_twoRows hc (Or.inr rfl)

/-- A range from the focus to the first row selects it. -/
theorem exists_keys_extend_cornered :
    ∃ s : KeySet Nat, ((cornered c).extend 1).model.selection = .keys s ∧
      (∀ x, x ∈ s.items ↔ x = 1) ∧ s.anchor = some 2 ∧ s.current = some 1 := by
  have hnone : (cornered c).selection = .keys .empty := by
    rw [cornered_eq hc]
    rfl
  have hlive : (cornered c).liveKeys = .empty := by
    rw [liveKeys_of_keys hnone]
    rfl
  have hstart : (cornered c).rangeStart (cornered c).liveKeys 1 = 2 :=
    rangeStart_cornered hc (.refl _) (by rw [hlive]; rfl) 1
  have hone : (cornered c).collection.contains 1 := by
    rw [collection_cornered hc]
    exact contains_twoRows hc (Or.inl rfl)
  refine ⟨(cornered c).stretched 1, ?_, fun x => ?_, ?_, rfl⟩
  · rw [extend_eq_propose ?_ hone ?_, selection_propose]
    all_goals rw [cornered_eq hc]
    · rfl
    · rfl
    · exact nofun
  · rw [mem_stretched_iff, hstart, hlive, canSelect_cornered hc]
    refine (or_iff_right fun h => by cases h.1).trans (and_iff_left_of_imp ?_)
    rintro rfl
    exact isBetween_cornered_one hc
  · rw [anchor_stretched, hstart]

/-- A range from there to the second row gives the first up and gains nothing. -/
theorem exhausts_extend_cornered : ((cornered c).extend 1).model.Exhausts 2 := by
  have hsetting : SameSetting (cornered c) ((cornered c).extend 1).model :=
    sameSetting_gesture (cornered c) (.extend 1)
  obtain ⟨s, hs, hitems, hanchor, hcurrent⟩ := exists_keys_extend_cornered hc
  have hlive : ((cornered c).extend 1).model.liveKeys = s.filter (cornered c).canSelect := by
    rw [liveKeys_of_keys hs, hsetting.canSelect]
  have hstart := rangeStart_cornered hc hsetting (k := 2) (by
    rw [hlive, KeySet.anchor_filter, hanchor]
    simp [Option.filter, canSelect_cornered hc])
  constructor
  case mode =>
    rw [hsetting.mode, cornered_eq hc]
    rfl
  case known =>
    rw [hsetting.collection, collection_cornered hc]
    exact contains_twoRows hc (Or.inr rfl)
  case stored =>
    rw [hs]
    exact nofun
  case bare =>
    intro x hx
    rw [hsetting.canSelect, canSelect_cornered hc] at hx
    rw [hstart, hsetting.isBetween, hx]
    exact not_isBetween_cornered_two hc
  case covered =>
    intro x hx
    rw [hlive, KeySet.items_filter, List.mem_filter, hitems] at hx
    refine ⟨1, ?_, ?_⟩
    · rw [hlive, KeySet.current_filter, hcurrent]
      simp [Option.filter, canSelect_cornered hc]
    · rw [hstart, hsetting.isBetween, hx.1]
      exact isBetween_cornered_one hc

theorem not_isEmpty_extend_cornered : ((cornered c).extend 1).model.selection.isEmpty = false := by
  obtain ⟨s, hs, hitems, -, -⟩ := exists_keys_extend_cornered hc
  rw [hs]
  exact Selection.not_isEmpty_of_mem ((hitems 1).2 rfl)

theorem controlled_extend_cornered : ((cornered c).extend 1).model.controlled = false := by
  have hsetting : SameSetting (cornered c) ((cornered c).extend 1).model :=
    sameSetting_gesture (cornered c) (.extend 1)
  rw [hsetting.controlled, cornered_eq hc]
  rfl

theorem disallowEmpty_extend_cornered :
    ((cornered c).extend 1).model.config.disallowEmpty = true := by
  have hsetting : SameSetting (cornered c) ((cornered c).extend 1).model :=
    sameSetting_gesture (cornered c) (.extend 1)
  rw [hsetting.config, cornered_eq hc]
  rfl

end TwoRows

/-- Once the first row is selected, flipping it does not take it away. -/
theorem gesture_keeps_nonempty_twoRows :
    ∃ c, Collection.ofForest twoRows = .ok c ∧
      let m := ((cornered c).extend 1).model
      m.controlled = false ∧ m.config.disallowEmpty = true ∧ m.selection.isEmpty = false ∧
        (m.gesture (.toggle 1)).model.selection.isEmpty = false := by
  obtain ⟨c, hc⟩ := Collection.exists_ofForest_ok_iff.2 (show twoRows.keys.Nodup by decide)
  have hfree := controlled_extend_cornered hc
  have hkeep := disallowEmpty_extend_cornered hc
  have hsome := not_isEmpty_extend_cornered hc
  exact ⟨c, hc, hfree, hkeep, hsome,
    (gesture_keeps_nonempty_iff (g := .toggle 1) hfree hkeep hsome nofun).2 nofun⟩

/-- But a range from the focus to the second row does, although gestures may not. -/
theorem extend_empties_selection :
    ∃ c, Collection.ofForest twoRows = .ok c ∧
      let start := SelectionModel.new ⟨0, c⟩ { mode := .multiple, disallowEmpty := true }
      let m := (start.run [.setFocusedKey (some 2) none, .gesture (.extend 1)]).model
      Built start ∧ m.controlled = false ∧ m.config.disallowEmpty = true ∧
        m.selection.isEmpty = false ∧ (m.gesture (.extend 2)).model.selection.isEmpty = true := by
  obtain ⟨c, hc⟩ := Collection.exists_ofForest_ok_iff.2 (show twoRows.keys.Nodup by decide)
  have hfree := controlled_extend_cornered hc
  exact ⟨c, hc, .new ⟨0, c⟩ { mode := .multiple, disallowEmpty := true }, hfree,
    disallowEmpty_extend_cornered hc, not_isEmpty_extend_cornered hc,
    isEmpty_extend_of_exhausts hfree (exhausts_extend_cornered hc)⟩

end Listbox.SelectionModel
