import Listbox.Proofs.Announcement

set_option autoImplicit false

/-! # Going back to replacing

A list that replaces can be made to toggle for a while, until nothing is selected any more. Storing a
selection sees to the end of it. Not every change of the selection is stored that way: a proposal
that comes to the same keys as before is kept for its roles, and the behavior is not looked at then.
But such a proposal leaves something if there was something. Without an owner a consistent model
stores no key that its collection lacks, and there the same keys are the same members.

`Adjusts` says what an operation can do to the behavior, and `reachable_reverts` what follows for
every operation of every run. -/

universe u v

namespace Listbox.SelectionModel

variable {K : Type u} {T : Type v} [DecidableEq K] [Hashable K]
variable {m r : SelectionModel K T}

/-- From `m` to `r` a selection was stored, and the behavior is what storing has made of it; or
neither the behavior has changed nor whether anything is stored. -/
inductive Adjusts (m r : SelectionModel K T) : Prop where
  | store (hbehavior : r.behavior = (m.store r.selection).behavior)
  | rest (hbehavior : r.behavior = m.behavior)
      (hempty : r.selection.isEmpty = m.selection.isEmpty)

namespace Adjusts

/-- Only storing an empty key set changes the behavior, and only back to replacing. -/
theorem of_changed (h : m.Adjusts r) (hne : r.behavior ≠ m.behavior) :
    m.config.behavior = .replace ∧ m.behavior = .toggle ∧ r.behavior = .replace ∧
      r.selection.isEmpty = true := by
  cases h with
  | store hbehavior =>
    simp only [SelectionModel.store] at hbehavior
    split at hbehavior
    · next hback => exact ⟨hback.1, hback.2.1, hbehavior, hback.2.2⟩
    · exact absurd hbehavior hne
  | rest hbehavior => exact absurd hbehavior hne

/-- A list that replaces does so again when its selection has been emptied. -/
theorem of_emptied (h : m.Adjusts r) (hreplaces : m.config.behavior = .replace)
    (hsome : m.selection.isEmpty = false) (hnone : r.selection.isEmpty = true) :
    r.behavior = .replace := by
  cases h with
  | store hbehavior =>
    cases htoggle : m.behavior with
    | toggle => simpa [SelectionModel.store, hreplaces, htoggle, hnone] using hbehavior
    | replace => simpa [SelectionModel.store, htoggle] using hbehavior
  | rest _ hempty =>
    rw [hsome, hnone] at hempty
    cases hempty

end Adjusts

/-! ## One operation -/

theorem adjusts_adopt (m : SelectionModel K T) (next : Selection K) :
    m.Adjusts (m.adopt next).model := by
  unfold adopt
  cases m.controlled with
  | true => exact .rest rfl rfl
  | false => exact .store rfl

/-- A proposal that is kept for its roles has the members of what was stored. -/
theorem adjusts_propose {next : Selection K} (hm : m.controlled = false → m.Knows m.selection)
    (hnext : m.Knows next) : m.Adjusts (m.propose next).model := by
  unfold propose
  split
  · exact adjusts_adopt m next
  · next hsame =>
    rw [Bool.or_eq_true, not_or] at hsame
    cases hc : m.controlled with
    | true => exact .rest rfl rfl
    | false => exact .rest rfl (alike_of_not_differs (hm hc) hnext hsame.1).isEmpty_eq

theorem adjusts_gesture (hm : m.controlled = false → m.Knows m.selection) (g : Gesture K) :
    m.Adjusts (m.gesture g).model := by
  rcases gesture_cases m g with h | ⟨next, hnext, h⟩
  · rw [h]
    exact .rest rfl rfl
  · rw [h]
    exact adjusts_propose hm hnext.knows

/-- Pruning follows a change of the setting, so it is compared with the model `before` that. -/
theorem adjusts_prune {before : SelectionModel K T} (hconfig : m.config = before.config)
    (hbehavior : m.behavior = before.behavior) (hselection : m.selection = before.selection) :
    before.Adjusts m.prune.model := by
  rcases prune_cases m with ⟨-, h⟩ | ⟨s, -, -, h⟩
  · rw [h]
    exact .rest hbehavior (congrArg (·.isEmpty) hselection)
  · rw [h]
    cases adjusts_adopt m (.keys (s.filter m.canSelect)) with
    | store hstored =>
      refine .store (hstored.trans ?_)
      simp only [SelectionModel.store, hconfig, hbehavior]
    | rest hkept hempty =>
      exact .rest (hkept.trans hbehavior) (hempty.trans (congrArg (·.isEmpty) hselection))

/-- **Step.** Whatever happens to a consistent model, unless it is told its behavior. -/
theorem adjusts_apply (h : m.Consistent) {op : Operation K T}
    (hop : ∀ b, op ≠ .setBehavior b) : m.Adjusts (m.apply op).model := by
  cases op with
  | gesture g => exact adjusts_gesture h.knows g
  | setControlled sel => exact .store rfl
  | setDisabled ks => exact adjusts_prune rfl rfl rfl
  | setBehavior b => exact absurd rfl (hop b)
  | setFocused | setFocusVisible | setObserved => exact .rest rfl rfl
  | setFocusedKey k child =>
    obtain ⟨focus, hfocus⟩ := m.exists_setFocusedKey_eq k child
    rw [apply, hfocus]
    exact .rest rfl rfl
  | setEdition e =>
    change m.Adjusts (m.setEdition e).model
    unfold setEdition
    split
    · exact .rest rfl rfl
    · exact adjusts_prune rfl rfl rfl

/-! ## Every operation of a run -/

/-- **Going back.** In every run of operations from the start: if a list that replaces loses the last
of its selection, it replaces afterwards, whatever it has been told before; and unless it is told
again, a behavior changes only from toggling to replacing, only in a list that replaces, and only
when nothing is stored afterwards. -/
theorem reachable_reverts {start : SelectionModel K T} (h : Built start)
    (ops : List (Operation K T)) (op : Operation K T) :
    let m := (start.run ops).model
    let r := (m.apply op).model
    (start.config.behavior = .replace → m.selection.isEmpty = false → r.selection.isEmpty = true →
      r.behavior = .replace) ∧
    ((∀ b, op ≠ .setBehavior b) → r.behavior ≠ m.behavior →
      start.config.behavior = .replace ∧ m.behavior = .toggle ∧ r.behavior = .replace ∧
        r.selection.isEmpty = true) := by
  intro m r
  have hm : m.Consistent := h.consistent.run ops
  have hconfig : m.config = start.config := (sameTerms_run start ops).config
  rw [← hconfig]
  constructor
  · intro hreplaces hsome hnone
    by_cases hop : ∃ b, op = .setBehavior b
    · obtain ⟨b, rfl⟩ := hop
      -- being told a behavior leaves the selection alone
      have hkept : r.selection.isEmpty = m.selection.isEmpty := rfl
      rw [hkept, hsome] at hnone
      cases hnone
    · exact (adjusts_apply hm (not_exists.1 hop)).of_emptied hreplaces hsome hnone
  · intro hop hne
    exact (adjusts_apply hm hop).of_changed hne

/-- A list that replaces is told to toggle and selects everything. That does not end the toggling,
and clearing does. -/
theorem reachable_reverts_twoRows :
    ∃ c, Collection.ofForest twoRows = .ok c ∧
      let start := SelectionModel.new ⟨0, c⟩ { mode := .multiple, behavior := .replace }
      let m := (start.run [.setBehavior .toggle, .gesture .selectAll]).model
      let r := (m.apply (.gesture .clear)).model
      Built start ∧ start.config.behavior = .replace ∧ m.behavior = .toggle ∧
        m.selection.isEmpty = false ∧ r.selection.isEmpty = true ∧ r.behavior = .replace := by
  obtain ⟨c, hc⟩ := Collection.exists_ofForest_ok_iff.2 (show twoRows.keys.Nodup by decide)
  refine ⟨c, hc, ?_⟩
  intro start m r
  have hbuilt : Built start := .new ⟨0, c⟩ { mode := .multiple, behavior := .replace }
  have hall : m.selection = .all :=
    Proposes.selection_gesture (m := start.setBehavior .toggle) (.selectAll rfl) rfl
  have hsome : m.selection.isEmpty = false := by rw [hall]; rfl
  have htoggle : m.behavior = .toggle := by
    obtain ⟨-, honly⟩ := reachable_reverts hbuilt [.setBehavior .toggle] (.gesture .selectAll)
    refine Decidable.byContradiction fun hne => ?_
    obtain ⟨-, -, -, hnone⟩ := honly (by simp) hne
    change m.selection.isEmpty = true at hnone
    rw [hsome] at hnone
    cases hnone
  have setting := sameSetting_gesture (start.setBehavior .toggle) .selectAll
  have hcleared : r.selection = .empty := by
    refine Proposes.selection_gesture (m := m) (.clear ?_ ?_) setting.controlled
    · simp [isEmpty, hall]
    · have hconfig : m.config = start.config := setting.config
      simp [hconfig, start, new]
  have hnone : r.selection.isEmpty = true := by rw [hcleared]; rfl
  obtain ⟨hback, -⟩ :=
    reachable_reverts hbuilt [.setBehavior .toggle, .gesture .selectAll] (.gesture .clear)
  exact ⟨hbuilt, rfl, htoggle, hsome, hnone, hback rfl hsome hnone⟩

end Listbox.SelectionModel
