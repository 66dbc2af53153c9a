import Listbox.Proofs.Stretching

set_option autoImplicit false

/-! # Choosing keys outright

Keys can be put into a model in three ways: by a gesture that names them, by an owner that hands them
over, and before the first operation. The gesture looks at the mode first and may change nothing but
roles, handing over stores at once, and the beginning does neither. All three take the same of the
keys: those that can be selected, each at its first occurrence, and only the first of them where one
row may be selected (`wanted`).

So choosing the same keys again changes neither what is stored nor the revision, and choosing what is
selected anyway leaves it selected. -/

universe u v

namespace Listbox

/-- The selection is a key set with these keys in this order. -/
def Selection.HasKeys {K : Type u} (sel : Selection K) (ks : List K) : Prop :=
  ∃ s, sel = .keys s ∧ s.items = ks

theorem Selection.HasKeys.alike {K : Type u} {sel sel' : Selection K} {ks : List K}
    (h : sel.HasKeys ks) (h' : sel'.HasKeys ks) : sel.Alike sel' := by
  obtain ⟨s, rfl, hs⟩ := h
  obtain ⟨s', rfl, hs'⟩ := h'
  intro k
  rw [hs, hs']

namespace SelectionModel

variable {K : Type u} {T : Type v} [DecidableEq K] [Hashable K]
variable {m m' : SelectionModel K T} {ks : List K}

/-- What the mode lets in of some keys: those that can be selected, each at its first occurrence, and
only the first of them where one row may be selected. -/
def wanted (m : SelectionModel K T) (ks : List K) : List K :=
  match m.mode with
  | .none => []
  | .single => (ks.eraseDups.filter m.canSelect).take 1
  | .multiple => ks.eraseDups.filter m.canSelect

theorem wanted_congr (hmode : m'.mode = m.mode) (hcan : m'.canSelect = m.canSelect) (ks : List K) :
    m'.wanted ks = m.wanted ks := by
  unfold wanted
  rw [hmode, hcan]

theorem SameSetting.wanted (h : SameSetting m m') (ks : List K) : m'.wanted ks = m.wanted ks :=
  wanted_congr h.mode h.canSelect ks

/-- Models of one collection and one mode that disable the same keys and treat links alike let the
same rows be selected. -/
theorem canSelect_congr (hedition : m'.edition = m.edition) (hmode : m'.mode = m.mode)
    (hlink : m'.config.linkBehavior = m.config.linkBehavior)
    (hdisabled : ∀ k, m'.disabledKeys.contains k = m.disabledKeys.contains k) :
    m'.canSelect = m.canSelect := by
  funext k
  simp only [canSelect, collection, hedition, hmode, hlink, hdisabled]

/-! ## Three ways in -/

/-- **Admission.** What a model may store of a list of keys is what is wanted of them. -/
theorem hasKeys_admissible (m : SelectionModel K T) (ks : List K) :
    (m.admissible (.keys (.ofList ks))).HasKeys (m.wanted ks) := by
  have hlive : ((KeySet.ofList ks).filter m.canSelect).items = ks.eraseDups.filter m.canSelect := by
    rw [KeySet.items_filter, KeySet.items_ofList]
  simp only [admissible, wanted]
  cases hmode : m.mode with
  | none =>
    refine ⟨_, rfl, List.eq_nil_iff_forall_not_mem.2 fun k hk => ?_⟩
    exact mode_ne_none_of_canSelect (admits_filter _ k hk) hmode
  | single =>
    rw [← hlive]
    cases hitems : ((KeySet.ofList ks).filter m.canSelect).items with
    | nil => exact ⟨_, rfl, hitems⟩
    | cons k rest =>
      cases rest with
      | nil => exact ⟨_, rfl, hitems⟩
      | cons k' rest => exact ⟨_, rfl, rfl⟩
  | multiple => exact ⟨_, rfl, hlive⟩

theorem hasKeys_setControlled (m : SelectionModel K T) (ks : List K) :
    (m.setControlled (.keys (.ofList ks))).model.selection.HasKeys (m.wanted ks) :=
  m.hasKeys_admissible ks

/-- The gesture does nothing in a mode without selection, and there nothing is stored anyway. -/
theorem hasKeys_select (hm : m.mode.Allows m.selection) (hfree : m.controlled = false)
    (ks : List K) : (m.select ks).model.selection.HasKeys (m.wanted ks) := by
  by_cases hmode : m.mode = .none
  · have hstill : m.select ks = m.still := if_pos hmode
    rw [hmode] at hm
    obtain ⟨s, hs, hnone⟩ := hm
    rw [hstill, wanted, hmode]
    exact ⟨s, hs, hnone⟩
  · have hstored : (m.gesture (.select ks)).model.selection = _ :=
      (Proposes.select ks hmode).selection_gesture hfree
    change (m.gesture (.select ks)).model.selection.HasKeys _
    rw [hstored, KeySet.ofListHashed_eq_ofList]
    exact m.hasKeys_admissible ks

/-- A model that is set up over the same rows begins with the same keys. -/
theorem hasKeys_withSelection_new {config : SelectionConfig K} (hmode : config.mode = m.mode)
    (hlink : config.linkBehavior = m.config.linkBehavior)
    (hdisabled : ∀ k, k ∈ config.disabledKeys ↔ m.disabledKeys.contains k) (ks : List K) :
    ((new m.edition config).withSelection (.keys (.ofList ks))).selection.HasKeys
      (m.wanted ks) := by
  have hcan : (new m.edition config).canSelect = m.canSelect := by
    refine canSelect_congr rfl hmode hlink fun k => ?_
    rw [Bool.eq_iff_iff, ← hdisabled]
    change (Std.HashSet.ofList config.disabledKeys).contains k = true ↔ _
    rw [Std.HashSet.contains_ofList, List.contains_iff_mem]
  have hmode : (new m.edition config).mode = m.mode := hmode
  rw [← wanted_congr hmode hcan ks]
  exact (new m.edition config).hasKeys_admissible ks

/-! ## Choosing again -/

theorem revision_setControlled (m : SelectionModel K T) {sel : Selection K}
    (h : m.selection.Alike (m.admissible sel)) :
    (m.setControlled sel).model.revision = m.revision :=
  if_pos (Selection.sameHashed_iff.2 h)

/-- What is selected and can be is wanted as it is. -/
theorem wanted_selectedKeys (hm : m.mode.Allows m.selection)
    (hlive : ∀ k ∈ m.selectedKeys.items, m.canSelect k) :
    m.wanted m.selectedKeys.items = m.selectedKeys.items := by
  have hall : m.selectedKeys.items.eraseDups.filter m.canSelect = m.selectedKeys.items := by
    rw [KeySet.eraseDups_of_nodup m.selectedKeys.nodup]
    exact List.filter_eq_self.2 hlive
  unfold wanted
  cases hmode : m.mode with
  | none =>
    refine (List.eq_nil_iff_forall_not_mem.2 fun k hk => ?_).symm
    exact mode_ne_none_of_canSelect (hlive k hk) hmode
  | single =>
    rw [hmode] at hm
    obtain ⟨s, hs, hsize⟩ := hm
    have hfew : m.selectedKeys.items.length ≤ 1 := by
      rw [selectedKeys, hs]
      exact Nat.le_trans (List.length_filter_le _ _) hsize
    rw [hall, List.take_of_length_le hfew]
  | multiple => exact hall

/-- Choosing what is selected and can be selects it again. -/
theorem items_select_selectedKeys (hm : m.mode.Allows m.selection) (hfree : m.controlled = false)
    (hlive : ∀ k ∈ m.selectedKeys.items, m.canSelect k) :
    (m.select m.selectedKeys.items).model.selectedKeys.items = m.selectedKeys.items := by
  obtain ⟨s, hs, hitems⟩ := hasKeys_select hm hfree m.selectedKeys.items
  have hsetting : SameSetting m (m.select m.selectedKeys.items).model :=
    sameSetting_gesture m (.select m.selectedKeys.items)
  have hknown : m.Knows (.keys s) := by
    intro k hk
    rw [hitems, wanted_selectedKeys hm hlive] at hk
    exact contains_of_canSelect (hlive k hk)
  rw [selectedKeys, hs, hsetting.resolve, items_resolve_of_knows hknown, hitems,
    wanted_selectedKeys hm hlive]

/-- **Choosing.** In every reachable model that nobody owns, choosing keys by a gesture stores what is
wanted of them, and so does handing them over, and so does setting up a model with them over the same
rows. Choosing or handing over the same keys again changes neither the stored keys nor the revision,
and choosing what is selected, if it can be, leaves it selected. -/
theorem reachable_chooses {start : SelectionModel K T} (h : Built start)
    (ops : List (Operation K T)) (hm : m = (start.run ops).model) (hfree : m.controlled = false)
    (ks : List K) :
    let chosen := (m.select ks).model
    let handed := (m.setControlled (.keys (.ofList ks))).model
    (chosen.selection.HasKeys (m.wanted ks) ∧ handed.selection.HasKeys (m.wanted ks)) ∧
    (∀ config : SelectionConfig K, config.mode = m.mode →
      config.linkBehavior = m.config.linkBehavior →
      (∀ k, k ∈ config.disabledKeys ↔ m.disabledKeys.contains k) →
      ((new m.edition config).withSelection (.keys (.ofList ks))).selection.HasKeys
        (m.wanted ks)) ∧
    ((chosen.select ks).model.selection.HasKeys (m.wanted ks) ∧
      (chosen.select ks).model.revision = chosen.revision) ∧
    ((handed.setControlled (.keys (.ofList ks))).model.selection.HasKeys (m.wanted ks) ∧
      (handed.setControlled (.keys (.ofList ks))).model.revision = handed.revision) ∧
    ((∀ k ∈ m.selectedKeys.items, m.canSelect k) →
      (m.select m.selectedKeys.items).model.selectedKeys.items = m.selectedKeys.items) := by
  have hconsistent : m.Consistent := hm ▸ h.consistent.run ops
  intro chosen handed
  have hchosen : chosen.selection.HasKeys (m.wanted ks) :=
    hasKeys_select hconsistent.allows hfree ks
  have hhanded : handed.selection.HasKeys (m.wanted ks) := m.hasKeys_setControlled ks
  refine ⟨⟨hchosen, hhanded⟩, fun config hmode hlink hdisabled => ?_, ?_, ?_, fun hlive => ?_⟩
  · exact hasKeys_withSelection_new hmode hlink hdisabled ks
  · -- the second gesture finds the setting of the first
    have hsetting : SameSetting m chosen := sameSetting_gesture m (.select ks)
    have hcounted : chosen.Consistent := hconsistent.gesture (.select ks)
    have hunowned : chosen.controlled = false := hsetting.controlled.trans hfree
    have hagain : (chosen.select ks).model.selection.HasKeys (m.wanted ks) :=
      hsetting.wanted ks ▸ hasKeys_select hcounted.allows hunowned ks
    have hcounts := counts_gesture hunowned (hcounted.knows hunowned) (.select ks)
    exact ⟨hagain, hcounts.same (hchosen.alike hagain)⟩
  · have hsetting : SameSetting m handed := sameSetting_store m _
    have hagain : (handed.admissible (.keys (.ofList ks))).HasKeys (m.wanted ks) :=
      hsetting.wanted ks ▸ handed.hasKeys_admissible ks
    exact ⟨hagain, handed.revision_setControlled (hhanded.alike hagain)⟩
  · exact items_select_selectedKeys hconsistent.allows hfree hlive

/-- After everything has been selected, a few keys are chosen, some twice and some that cannot be
selected or are not there. -/
theorem reachable_chooses_mixedRows :
    ∃ c, Collection.ofForest mixedRows = .ok c ∧
      let start := SelectionModel.new ⟨0, c⟩ (followOnly .multiple)
      let m := (start.run [.gesture .selectAll]).model
      let ks := [5, 3, 7, 2, 5, 4, 10, 1, 2]
      Built start ∧ m.controlled = false ∧ (m.select ks).model.selection.HasKeys [5, 2, 1] ∧
        ((m.select ks).model.select ks).model.revision = (m.select ks).model.revision := by
  obtain ⟨c, hc⟩ := Collection.exists_ofForest_ok_iff.2 (show mixedRows.keys.Nodup by decide)
  let start := SelectionModel.new ⟨0, c⟩ (followOnly .multiple)
  let m := (start.run [.gesture .selectAll]).model
  have hsetting : SameSetting start m := sameSetting_gesture start .selectAll
  have hcan : m.canSelect = fun k => decide (k ∈ [1, 2, 5]) :=
    hsetting.canSelect.trans (funext (canSelect_mixedRows hc))
  have hwanted : m.wanted [5, 3, 7, 2, 5, 4, 10, 1, 2] = [5, 2, 1] := by
    rw [wanted, hsetting.mode, hcan]
    rfl
  obtain ⟨⟨hchosen, -⟩, -, ⟨-, hrevision⟩, -⟩ := reachable_chooses (.new ⟨0, c⟩ _)
    [.gesture .selectAll] (rfl : m = (start.run [.gesture .selectAll]).model)
    hsetting.controlled [5, 3, 7, 2, 5, 4, 10, 1, 2]
  exact ⟨c, hc, .new ⟨0, c⟩ _, hsetting.controlled, hwanted ▸ hchosen, hrevision⟩

end SelectionModel

end Listbox
