import Listbox.Proofs.Stops

set_option autoImplicit false

/-! # Targets of moves

Wherever a move starts, it leads to an item that can take the focus, or it is a page that could not
make a single step and stays where it was. Over a selection model these are the items that the model
does not count as disabled (`moves_target_focusable`). -/

universe u v

namespace Listbox.Navigator

variable {K : Type u} {T : Type v} [DecidableEq K] [Hashable K]

/-- **Targets.** A target is the key of a focusable item, or it is the key that a page started from.
There is no first and no last key only if no item is focusable, and from an unknown key there is no
other move. In a navigator over a selection model, however it is laid out and searched, the focusable
items are those that the model does not count as disabled. -/
theorem moves_target_focusable (v : Navigator K T) (k : K) (move : Move) :
    (∀ t, v.go? k move = some t →
      v.Offers t ∨ (move = .pageBelow ∨ move = .pageAbove) ∧ t = k) ∧
    (move = .first ∨ move = .last → (v.go? k move = none ↔ ¬ ∃ t, v.Offers t)) ∧
    (move ≠ .first → move ≠ .last → v.collection.contains k = false → v.go? k move = none) ∧
    (∀ (m : SelectionModel K T) config layout collator t,
      ({ ofModel m config with layout, collator } : Navigator K T).Offers t ↔ m.Focusable t) := by
  refine ⟨fun t ht => ?_, fun hends => ?_, fun hfirst hlast hk => go?_of_unknown hk hfirst hlast,
    fun m config layout collator _ => offers_ofModel_iff m config layout collator⟩
  · rcases offers_go? ht with ⟨rfl, -, hpage⟩ | hoffers
    · exact Or.inr ⟨hpage, rfl⟩
    · exact Or.inl hoffers
  · rw [not_exists]
    rcases hends with rfl | rfl
    · exact first?_eq_none_iff
    · exact last?_eq_none_iff

/-- Where the rows of a page are all disabled above, it stays on a row that is disabled itself; below,
it leads to the only row that is left. -/
theorem moves_target_focusable_stairs :
    ∃ c, Collection.ofForest Collection.stairs = .ok c ∧
      let m := SelectionModel.new ⟨0, c⟩ { mode := .multiple, disabledKeys := [2, 3] }
      let v := ofModel m { pageSize := 2 }
      v.go? 2 .pageAbove = some 2 ∧ ¬ v.Offers 2 ∧ v.go? 2 .pageBelow = some 4 ∧ m.Focusable 4 ∧
        v.go? 7 .first = some 4 ∧ v.collection.contains 7 = false ∧ v.go? 7 .rightOf = none := by
  obtain ⟨c, hc⟩ := Collection.exists_ofForest_ok_iff.2 (show Collection.stairs.keys.Nodup by decide)
  let m := SelectionModel.new ⟨0, c⟩ { mode := .multiple, disabledKeys := [2, 3] }
  let v := ofModel m { pageSize := 2 }
  have hkeys : v.collection.keys = [1] ++ 2 :: [3, 4] := Collection.keys_ofForest hc
  have hnodes : v.collection.toList = Collection.stairs.nodes := Collection.toList_ofForest hc
  have hstops : v.stops = [4] := by
    have hfocusable : v.isFocusable = fun n => n.isItem && !(n.disabled || [2, 3].contains n.key) := by
      funext n
      simp [isFocusable, isDisabled, v, ofModel, new, m, SelectionModel.new]
    rw [stops_eq_map, hfocusable, hnodes]
    decide
  have hknown : v.collection.contains 2 = true := Collection.contains_of_keys_eq hkeys
  have hunknown : v.collection.contains 7 = false := by
    rw [← Bool.not_eq_true, Collection.contains_iff_mem_keys, hkeys]
    decide
  have habove : v.go? 2 .pageAbove = some 2 := by
    change v.page? false 2 = some 2
    rw [page?, if_pos hknown]
    change some (v.advance false 2 2) = _
    rw [advance_false rfl 2 hkeys, funext v.stopsAt_eq_decide, hstops]
    decide
  have hbelow : v.go? 2 .pageBelow = some 4 := by
    change v.page? true 2 = some 4
    rw [page?, if_pos hknown]
    change some (v.advance true 2 2) = _
    rw [advance_true rfl 2 hkeys, funext v.stopsAt_eq_decide, hstops]
    decide
  have hfirst : v.go? 7 .first = some 4 := by
    change v.first? = some 4
    rw [first?_eq_head?_stops, hstops]
    rfl
  have hnot : ¬ v.Offers 2 := by
    rw [← mem_stops_iff, hstops]
    decide
  obtain ⟨htarget, -, -, hmodel⟩ := moves_target_focusable v 2 .pageBelow
  have hoffers : v.Offers 4 := (htarget 4 hbelow).resolve_right fun h => absurd h.2 (by decide)
  have hnowhere : v.go? 7 .rightOf = none :=
    (moves_target_focusable v 7 .rightOf).2.2.1 (by decide) (by decide) hunknown
  exact ⟨c, hc, habove, hnot, hbelow, (hmodel m _ none .caseInsensitive 4).1 hoffers, hfirst, hunknown,
    hnowhere⟩

end Listbox.Navigator
