import Listbox.Proofs.Consistency

set_option autoImplicit false

/-! # Only what can be selected is selected

A listener is told, and a model without an owner stores, only keys that can be selected at that
moment. One gesture is an exception: a range that starts from everything goes to its moving end
without asking whether that row can be selected. `throughout_selectable_iff` says that there is no
other, so the rule holds along a run exactly if no operation of the run slips in this way. -/

universe u v

namespace Listbox

variable {K : Type u} {T : Type v} [DecidableEq K] [Hashable K]

/-- What was announced, what is stored and what counts as selected can be selected. -/
structure Update.Selectable (u : Update K T) : Prop where
  reports : ∀ sel ∈ u.reports, u.model.Admits sel
  stored : u.model.controlled = false → u.model.Admits u.model.selection
  selected : u.model.controlled = false → ∀ k, u.model.isSelected k → u.model.canSelect k

namespace SelectionModel

variable {m m' : SelectionModel K T} {g : Gesture K}

/-- `p` holds of every operation of a run and the model that the operation finds. -/
def Throughout (p : SelectionModel K T → Operation K T → Prop) (m : SelectionModel K T) :
    List (Operation K T) → Prop
  | [] => True
  | op :: ops => p m op ∧ Throughout p (m.apply op).model ops

/-- The operation is a gesture that overreaches, and the outcome is stored or announced. -/
def Slips (m : SelectionModel K T) (op : Operation K T) : Prop :=
  ∃ g, op = .gesture g ∧ m.Overreaches g ∧ (m.controlled = false ∨ m.observed = true)

theorem canSelect_of_isSelected (hm : m.Admits m.selection) {k : K} (hk : m.isSelected k) :
    m.canSelect k := by
  unfold isSelected at hk
  cases hsel : m.selection with
  | all =>
    simp only [hsel, Bool.and_eq_true] at hk
    exact hk.2
  | keys s =>
    rw [hsel] at hm
    simp only [hsel, Bool.and_eq_true, KeySet.contains_iff] at hk
    exact hm k hk.2.1

theorem selectable_of_admits {u : Update K T} (hreports : ∀ sel ∈ u.reports, u.model.Admits sel)
    (hstored : u.model.controlled = false → u.model.Admits u.model.selection) : u.Selectable :=
  ⟨hreports, hstored, fun hc _ => canSelect_of_isSelected (hstored hc)⟩

theorem selectable_still (hm : m.controlled = false → m.Admits m.selection) : m.still.Selectable :=
  selectable_of_admits nofun hm

/-- An outcome is fine if all it announces and stores is one selection whose keys can be
selected. -/
theorem selectable_of_outcome {u : Update K T} {sel : Selection K} (hsel : m.Admits sel)
    (setting : SameSetting m u.model) (hreports : ∀ sel' ∈ u.reports, sel' = sel)
    (hstored : u.model.selection = if m.controlled then m.selection else sel) : u.Selectable := by
  refine selectable_of_admits (fun sel' hsel' => ?_) fun hc => ?_
  · rw [setting.admits, hreports sel' hsel']
    exact hsel
  · rw [setting.controlled] at hc
    rw [setting.admits, hstored, hc]
    exact hsel

theorem selectable_adopt {sel : Selection K} (hsel : m.Admits sel) : (m.adopt sel).Selectable := by
  refine selectable_of_outcome hsel (sameSetting_adopt m sel) ?_ (selection_adopt m sel)
  rw [reports_adopt]
  split <;> simp

theorem selectable_propose {sel : Selection K} (hsel : m.Admits sel) :
    (m.propose sel).Selectable := by
  refine selectable_of_outcome hsel (sameSetting_propose m sel) ?_ (selection_propose m sel)
  rw [reports_propose]
  split <;> simp

theorem selectable_prune (m : SelectionModel K T) : m.prune.Selectable := by
  rcases prune_cases m with ⟨hadm, h⟩ | ⟨s, -, -, h⟩
  · rw [h]
    exact selectable_still fun _ => hadm
  · rw [h]
    exact selectable_adopt (admits_filter s)

/-! ## Gestures -/

theorem selectable_gesture (hm : m.controlled = false → m.Admits m.selection)
    (hg : ¬ m.Overreaches g) : (m.gesture g).Selectable := by
  rcases gesture_cases m g with h | ⟨next, hnext, h⟩
  · rw [h]
    exact selectable_still hm
  · rw [h]
    exact selectable_propose (hnext.admits hg)

/-- A gesture that overreaches adopts a key that cannot be selected. -/
theorem gesture_of_overreaches (h : m.Overreaches g) :
    ∃ k, g = .extend k ∧ ¬ m.canSelect k ∧ m.gesture g = m.adopt (.keys (.single k)) := by
  obtain ⟨k, rfl, hmode, hall, hk, hcan⟩ := h
  have hprop : m.gesture (.extend k) = m.propose (.keys (.single k)) := by
    simp [gesture, extend, hmode, hk, hall, Selection.isAll]
  have hdiffers : m.differs (.keys (.single k)) = true := by
    simp [differs, hall, Selection.isAll]
  exact ⟨k, rfl, hcan, by rw [hprop, propose, hdiffers, Bool.true_or, if_pos rfl]⟩

theorem not_selectable_of_slips {op : Operation K T} (h : m.Slips op) :
    ¬ (m.apply op).Selectable := by
  obtain ⟨g, rfl, hg, hseen⟩ := h
  obtain ⟨k, -, hcan, hadopt⟩ := gesture_of_overreaches hg
  have setting := sameSetting_adopt m (.keys (.single k))
  have hbad : ¬ (m.adopt (.keys (.single k))).model.Admits (.keys (.single k)) := by
    rw [setting.admits]
    exact fun hadm => hcan (hadm k (by simp))
  change ¬ (m.gesture g).Selectable
  rw [hadopt]
  intro hsel
  rcases hseen with hc | ho
  · have hstored := hsel.stored (by rw [setting.controlled, hc])
    rw [selection_adopt, hc] at hstored
    exact hbad hstored
  · exact hbad (hsel.reports _ (by rw [reports_adopt, ho]; exact List.mem_cons_self))

/-- If nobody stores or hears of the outcome, overreaching has none. -/
theorem selectable_of_unseen (h : m.Overreaches g) (hc : m.controlled = true)
    (ho : m.observed = false) : (m.gesture g).Selectable := by
  obtain ⟨k, -, -, hadopt⟩ := gesture_of_overreaches h
  have hstill : m.adopt (.keys (.single k)) = m.still := by simp [adopt, still, hc, ho]
  rw [hadopt, hstill]
  exact selectable_still fun hfree => by rw [hc] at hfree; cases hfree

/-! ## Operations and runs -/

/-- **One operation.** If what is stored can be selected, an operation keeps to what can be selected
exactly if it does not slip. -/
theorem selectable_apply_iff (hm : m.controlled = false → m.Admits m.selection)
    (op : Operation K T) : (m.apply op).Selectable ↔ ¬ m.Slips op := by
  refine ⟨fun h hslip => not_selectable_of_slips hslip h, fun hslip => ?_⟩
  cases op with
  | gesture g =>
    by_cases hg : m.Overreaches g
    · have hunseen : ¬ (m.controlled = false ∨ m.observed = true) :=
        fun hseen => hslip ⟨g, rfl, hg, hseen⟩
      rw [not_or, Bool.not_eq_false, Bool.not_eq_true] at hunseen
      exact selectable_of_unseen hg hunseen.1 hunseen.2
    · exact selectable_gesture hm hg
  | setControlled sel => exact selectable_of_admits nofun fun _ => admits_admissible sel
  | setDisabled ks => exact selectable_prune _
  | setEdition e =>
    change (m.setEdition e).Selectable
    unfold setEdition
    split
    · exact selectable_still hm
    · exact selectable_prune _
  | setFocusedKey k child =>
    obtain ⟨focus, hfocus⟩ := m.exists_setFocusedKey_eq k child
    change (m.setFocusedKey k child).still.Selectable
    rw [hfocus]
    exact selectable_still hm
  | setBehavior | setFocused | setFocusVisible | setObserved =>
    exact selectable_of_admits nofun hm

theorem Built.admits (h : Built m) (hc : m.controlled = false) : m.Admits m.selection := by
  induction h with
  | new e config => exact admits_empty
  | withSelection hm sel ih => exact admits_admissible sel
  | controlledBy hm sel ih => exact admits_admissible sel
  | setObserved hm on ih => exact ih hc

/-- **Selectability.** Along a run, everything announced, stored without an owner and selected can
be selected at that moment, exactly if no operation of the run slips. -/
theorem throughout_selectable_iff (h : Built m) (ops : List (Operation K T)) :
    Throughout (fun m op => (m.apply op).Selectable) m ops ↔
      Throughout (fun m op => ¬ m.Slips op) m ops := by
  -- what carries the induction is that the stored keys can be selected, not how the model was built
  have hm : m.controlled = false → m.Admits m.selection := h.admits
  clear h
  induction ops generalizing m with
  | nil => exact Iff.rfl
  | cons op ops ih =>
    unfold Throughout
    rw [selectable_apply_iff hm op]
    refine and_congr_right fun hslip => ih ?_
    -- an operation that does not slip leaves a state of the same kind behind
    exact ((selectable_apply_iff hm op).2 hslip).stored

/-- A run that selects a row, withdraws it and selects it again never slips. -/
theorem throughout_selectable_twoRows :
    ∃ c, Collection.ofForest twoRows = .ok c ∧
      let m := (SelectionModel.new ⟨0, c⟩ { mode := .multiple }).setObserved true
      Built m ∧ Throughout (fun m op => (m.apply op).Selectable) m
        [.gesture (.extend 1), .setDisabled [1], .setDisabled []] := by
  obtain ⟨c, hc⟩ := Collection.exists_ofForest_ok_iff.2 (show twoRows.keys.Nodup by decide)
  have hm : Built ((SelectionModel.new ⟨0, c⟩ { mode := .multiple }).setObserved true) :=
    .setObserved (.new ⟨0, c⟩ { mode := .multiple }) true
  refine ⟨c, hc, hm, (throughout_selectable_iff hm _).2 ⟨?_, ?_, ?_, trivial⟩⟩
  · rintro ⟨g, -, ⟨k, -, -, hall, -⟩, -⟩
    cases hall
  · rintro ⟨g, hg, -⟩
    cases hg
  · rintro ⟨g, hg, -⟩
    cases hg

/-- Once everything is selected, a range to the disabled row overreaches. -/
theorem overreaches_twoRows {m : SelectionModel Nat Unit} {c : Collection Nat Unit}
    (hc : Collection.ofForest twoRows = .ok c) (hcoll : m.collection = c)
    (hmode : m.mode = .multiple) (hall : m.selection = .all) : m.Overreaches (.extend 2) := by
  refine ⟨2, rfl, hmode, hall, ?_, fun hcan => ?_⟩
  · rw [hcoll, Collection.contains_iff_mem_keys, Collection.keys_ofForest hc]
    decide
  · obtain ⟨-, -, n, hn, hkey, -, henabled, -⟩ := canSelect_iff.1 hcan
    rw [hcoll, Collection.toList_ofForest hc] at hn
    have hrows : ∀ n ∈ twoRows.nodes, n.key = 2 → n.disabled = true := by decide
    rw [hrows n hn hkey] at henabled
    cases henabled

/-- Everything is selected, and a range from there goes to the disabled row: that row is announced
and stored, though it cannot be selected. -/
theorem extend_selects_disabled :
    ∃ c, Collection.ofForest twoRows = .ok c ∧
      let m := (SelectionModel.new ⟨0, c⟩ { mode := .multiple }).setObserved true
      let ops : List (Operation Nat Unit) := [.gesture .selectAll, .gesture (.extend 2)]
      let r := m.run ops
      Built m ∧ r.reports = [.all, .keys (.single 2)] ∧ r.model.selection = .keys (.single 2) ∧
        ¬ r.model.canSelect 2 ∧ ¬ Throughout (fun m op => (m.apply op).Selectable) m ops := by
  obtain ⟨c, hc⟩ := Collection.exists_ofForest_ok_iff.2 (show twoRows.keys.Nodup by decide)
  let m := (SelectionModel.new ⟨0, c⟩ { mode := .multiple }).setObserved true
  have hm : Built m := .setObserved (.new ⟨0, c⟩ { mode := .multiple }) true
  have hall : m.apply (.gesture .selectAll) = m.adopt .all := by
    simp [apply, gesture, selectAll, propose, differs, m, mode, new, setObserved, Selection.isAll,
      Selection.empty]
  have hover : (m.store .all).Overreaches (.extend 2) := overreaches_twoRows hc rfl rfl rfl
  obtain ⟨k, hk, hcan, hadopt⟩ := gesture_of_overreaches hover
  cases hk
  have hextend : (m.store .all).apply (.gesture (.extend 2)) =
      (m.store .all).adopt (.keys (.single 2)) := hadopt
  have hmodel : (m.apply (.gesture .selectAll)).model = m.store .all := by
    rw [hall]
    rfl
  have hrun : m.run [.gesture .selectAll, .gesture (.extend 2)] =
      ⟨(m.store .all).store (.keys (.single 2)), [.all, .keys (.single 2)]⟩ := by
    simp only [run]
    rw [hmodel, hextend, hall]
    rfl
  have hdisabled : ¬ (m.run [.gesture .selectAll, .gesture (.extend 2)]).model.canSelect 2 := by
    rw [hrun]
    exact hcan
  refine ⟨c, hc, hm, congrArg Update.reports hrun, congrArg (·.model.selection) hrun, hdisabled,
    fun h => ?_⟩
  have hsecond : ((m.store .all).apply (.gesture (.extend 2))).Selectable := hmodel ▸ h.2.1
  exact not_selectable_of_slips ⟨.extend 2, rfl, hover, Or.inl rfl⟩ hsecond

end SelectionModel

end Listbox
