import Listbox.Collection.Search
import Listbox.ListControl.Basic
import Listbox.Navigation.Navigator

set_option autoImplicit false

/-! # Where moves lead

A navigator leads to focusable nodes of its collection: every step, page and search goes back to one
of two walks over the nodes, and either stops only at a focusable one. The exception is a page on
which no step can be made, which stays where it was, whatever is there.

A navigator over a selection model has the same idea of what is focusable as the model: an item that
is not disabled. -/

universe u v

namespace Listbox

variable {K : Type u} {T : Type v} [DecidableEq K] [Hashable K]

namespace Navigator

variable {v : Navigator K T} {forward : Bool} {k t : K}

/-- The key is that of a focusable node. -/
def Offers (v : Navigator K T) (t : K) : Prop :=
  ∃ n ∈ v.collection.toList, n.key = t ∧ v.isFocusable n = true

/-! ## Single steps -/

theorem offers_first? (h : v.first? = some t) : v.Offers t := by
  obtain ⟨n, hn, rfl⟩ := Option.map_eq_some_iff.1 h
  obtain ⟨hmem, hfocusable⟩ := Collection.mem_of_findFrom? hn
  exact ⟨n, hmem, rfl, hfocusable⟩

theorem offers_last? (h : v.last? = some t) : v.Offers t := by
  obtain ⟨n, hn, rfl⟩ := Option.map_eq_some_iff.1 h
  obtain ⟨hmem, hfocusable⟩ := Collection.mem_of_findBefore? hn
  exact ⟨n, hmem, rfl, hfocusable⟩

theorem offers_seek? {p : Node K T → Bool} (h : v.seek? p forward k = some t) : v.Offers t := by
  obtain ⟨i, -, hi⟩ := Option.bind_eq_some_iff.1 h
  obtain ⟨n, hn, rfl⟩ := Option.map_eq_some_iff.1 hi
  have hmem : n ∈ v.collection.toList ∧ (v.isFocusable n && p n) = true := by
    cases forward with
    | true => exact Collection.mem_of_findFrom? hn
    | false => exact Collection.mem_of_findBefore? hn
  exact ⟨n, hmem.1, rfl, (Bool.and_eq_true_iff.1 hmem.2).1⟩

theorem offers_stepInLayout? {related : Rect → Rect → Bool}
    (h : v.stepInLayout? related forward k = some t) : v.Offers t := by
  unfold stepInLayout? at h
  split at h
  · exact offers_seek? h
  · obtain ⟨source, -, hseek⟩ := Option.bind_eq_some_iff.1 h
    exact offers_seek? hseek

theorem offers_vertical? (h : v.vertical? forward k = some t) : v.Offers t := by
  unfold vertical? at h
  split at h
  · exact offers_stepInLayout? h
  · exact offers_seek? h

theorem offers_horizontal? (h : v.horizontal? forward k = some t) : v.Offers t := by
  unfold horizontal? at h
  split at h
  · cases h
  · exact offers_stepInLayout? h
  · exact offers_seek? h

theorem offers_wrap? (h : v.wrap? forward = some t) : v.Offers t := by
  unfold wrap? at h
  split at h
  · split at h
    · exact offers_first? h
    · exact offers_last? h
  · cases h

theorem offers_upDown? (h : v.upDown? forward k = some t) : v.Offers t := by
  unfold upDown? at h
  split at h
  · rcases Option.or_eq_some_iff.1 h with h | ⟨-, h⟩
    · exact offers_vertical? h
    · exact offers_wrap? h
  · cases h

theorem offers_sideways? (h : v.sideways? forward k = some t) : v.Offers t := by
  unfold sideways? at h
  split at h
  · rcases Option.or_eq_some_iff.1 h with h | ⟨-, h⟩
    · exact offers_horizontal? h
    · exact offers_wrap? h
  · cases h

/-! ## Pages and searches -/

/-- However many steps are asked for, they end where they began or on a focusable node. -/
theorem advance_eq_or_offers (n : Nat) (k : K) :
    v.advance forward n k = k ∨ v.Offers (v.advance forward n k) := by
  induction n generalizing k with
  | zero => exact Or.inl rfl
  | succ n ih =>
    rw [advance]
    split
    · next k' hstep =>
      rcases ih k' with hstays | hoffers
      · rw [hstays]
        exact Or.inr (offers_vertical? hstep)
      · exact Or.inr hoffers
    · exact Or.inl rfl

/-- A page leads to a focusable node, or it stays on its key. -/
theorem offers_page? (h : v.page? forward k = some t) :
    (t = k ∧ v.collection.contains k) ∨ v.Offers t := by
  unfold page? at h
  split at h
  · next hk =>
    split at h
    · split at h
      · exact Or.inr (offers_last? h)
      · exact Or.inr (offers_first? h)
    · next n _ =>
      cases h
      exact (v.advance_eq_or_offers n k).imp_left fun hstays => ⟨hstays, hk⟩
  · cases h

theorem offers_search? {text : String} {start : Option K} (h : v.search? text start = some t) :
    v.Offers t := by
  unfold search? at h
  split at h
  · cases h
  · obtain ⟨n, hn, rfl⟩ := Option.map_eq_some_iff.1 h
    have hhit : v.isHit text n = true := List.find?_some hn
    exact ⟨n, Collection.mem_of_mem_round (List.mem_of_find?_eq_some hn), rfl,
      (Bool.and_eq_true_iff.1 hhit).1⟩

/-- **Moves.** A move leads to a focusable node, unless it is a page that stays on its key. -/
theorem offers_go? {move : Move} (h : v.go? k move = some t) :
    (t = k ∧ v.collection.contains k ∧ (move = .pageBelow ∨ move = .pageAbove)) ∨ v.Offers t := by
  cases move with
  | below | above => exact Or.inr (offers_upDown? h)
  | leftOf | rightOf => exact Or.inr (offers_sideways? h)
  | pageBelow =>
    exact (offers_page? h).imp_left fun hstays => ⟨hstays.1, hstays.2, Or.inl rfl⟩
  | pageAbove =>
    exact (offers_page? h).imp_left fun hstays => ⟨hstays.1, hstays.2, Or.inr rfl⟩
  | first => exact Or.inr (offers_first? h)
  | last => exact Or.inr (offers_last? h)

/-! ## No way -/

theorem first?_eq_none_iff : v.first? = none ↔ ∀ t, ¬ v.Offers t := by
  rw [first?, Option.map_eq_none_iff, Collection.findFrom?_eq_none_iff]
  constructor
  · rintro h t ⟨n, hn, -, hfocusable⟩
    exact Nat.not_lt_zero _ (h n hn hfocusable)
  · intro h n hn hfocusable
    exact absurd ⟨n, hn, rfl, hfocusable⟩ (h n.key)

theorem last?_eq_none_iff : v.last? = none ↔ ∀ t, ¬ v.Offers t := by
  rw [last?, Option.map_eq_none_iff, Collection.findBefore?_eq_none_iff]
  constructor
  · rintro h t ⟨n, hn, -, hfocusable⟩
    have hposition := Collection.position?_eq_map_index v.collection n.key
    rw [Collection.get?_eq_some_iff.2 ⟨hn, rfl⟩, Option.map_some] at hposition
    exact absurd (Collection.position?_lt hposition) (Nat.not_lt.2 (h n hn hfocusable))
  · intro h n hn hfocusable
    exact absurd ⟨n, hn, rfl, hfocusable⟩ (h n.key)

theorem upDown?_of_unknown (h : v.collection.contains k = false) : v.upDown? forward k = none := by
  rw [upDown?, h]
  rfl

theorem sideways?_of_unknown (h : v.collection.contains k = false) :
    v.sideways? forward k = none := by
  rw [sideways?, h]
  rfl

theorem page?_of_unknown (h : v.collection.contains k = false) : v.page? forward k = none := by
  rw [page?, h]
  rfl

/-- From an unknown key there is only the way to the ends. -/
theorem go?_of_unknown {move : Move} (h : v.collection.contains k = false) (hfirst : move ≠ .first)
    (hlast : move ≠ .last) : v.go? k move = none := by
  cases move with
  | below | above => exact upDown?_of_unknown h
  | leftOf | rightOf => exact sideways?_of_unknown h
  | pageBelow | pageAbove => exact page?_of_unknown h
  | first => exact absurd rfl hfirst
  | last => exact absurd rfl hlast

end Navigator

/-! ## What a model lets be focused -/

/-- The key is that of an item of the collection that is not disabled. -/
def SelectionModel.Focusable (m : SelectionModel K T) (k : K) : Prop :=
  ∃ n ∈ m.collection.toList, n.key = k ∧ n.isItem = true ∧ m.isDisabled k = false

theorem SelectionModel.Focusable.contains {m : SelectionModel K T} {k : K} (h : m.Focusable k) :
    m.collection.contains k := by
  obtain ⟨n, hn, rfl, -⟩ := h
  exact Collection.contains_iff_mem_keys.2 (List.mem_map_of_mem hn)

namespace Navigator

variable (m : SelectionModel K T) (config : NavigationConfig) (layout : Option (Layout K))
variable (collator : Collator)

/-- A navigator asks of a node what its model asks of the key. -/
theorem isDisabled_ofModel {n : Node K T} (hn : n ∈ m.collection.toList) :
    ({ ofModel m config with layout, collator } : Navigator K T).isDisabled n =
      m.isDisabled n.key := by
  have hget := Collection.get?_eq_some_iff.2 ⟨hn, rfl⟩
  unfold isDisabled SelectionModel.isDisabled
  rw [hget, Option.any_some, Bool.or_comm]
  rfl

/-- **Agreement.** The navigator of a model leads where the model lets the focus go. -/
theorem offers_ofModel_iff {k : K} :
    ({ ofModel m config with layout, collator } : Navigator K T).Offers k ↔ m.Focusable k := by
  refine exists_congr fun n => and_congr_right fun hn => and_congr_right fun hkey => ?_
  rw [isFocusable, isDisabled_ofModel m config layout collator hn, Bool.and_eq_true,
    Bool.not_eq_true', hkey]

end Navigator

/-- The navigator of a list control leads where its model lets the focus go. -/
theorem ListControl.offers_navigator_iff {l : ListControl K T} {layout : Option (Layout K)} {k : K} :
    (l.navigator layout).Offers k ↔ l.model.Focusable k :=
  Navigator.offers_ofModel_iff l.model l.config.navigation layout .caseInsensitive

end Listbox
