import Listbox.Proofs.Consistency

set_option autoImplicit false

/-! # What is announced, and what is counted

Without an owner, the listener of a model hears of a gesture exactly if the selected keys are others
afterwards, and of a change of the setting exactly if keys were lost; it hears of each at most once,
and hears what is stored. The revision counts something else, the changes of what is stored. The two
agree because a consistent model stores no key that its collection lacks: there a selection comes to
its own members, so a proposal that comes to the same keys has the same members. -/

universe u v

namespace Listbox

variable {K : Type u} {T : Type v}

/-- The sets have the same members, in whatever order and roles. -/
def KeySet.SameMembers (s t : KeySet K) : Prop := ∀ k, k ∈ s.items ↔ k ∈ t.items

/-- Both are everything, or both are key sets with the same members. -/
def Selection.Alike : Selection K → Selection K → Prop
  | .all, .all => True
  | .keys s, .keys t => s.SameMembers t
  | _, _ => False

theorem Selection.Alike.refl (sel : Selection K) : sel.Alike sel := by
  cases sel with
  | all => trivial
  | keys s => exact fun _ => Iff.rfl

theorem Selection.Alike.isEmpty_eq {sel next : Selection K} (h : sel.Alike next) :
    next.isEmpty = sel.isEmpty := by
  cases sel with
  | all =>
    cases next with
    | all => rfl
    | keys t => exact h.elim
  | keys s =>
    cases next with
    | all => exact h.elim
    | keys t =>
      have hnone : t.items = [] ↔ s.items = [] := by
        simp only [List.eq_nil_iff_forall_not_mem]
        exact forall_congr' fun k => not_congr (h k).symm
      change t.isEmpty = s.isEmpty
      rw [Bool.eq_iff_iff, KeySet.isEmpty_iff, KeySet.isEmpty_iff]
      exact hnone

variable [DecidableEq K] [Hashable K]

theorem Selection.sameHashed_iff {sel next : Selection K} :
    sel.sameHashed next ↔ sel.Alike next := by
  cases sel with
  | all => cases next <;> simp [sameHashed, Alike]
  | keys s =>
    cases next with
    | all => simp [sameHashed, Alike]
    | keys t => exact KeySet.sameKeysHashed_iff

/-! ## Laws of an operation -/

/-- A gesture is heard of at most once, as what is stored; and if repeats are not asked for, it is
heard of exactly if the selected keys are others afterwards, or "all" has come or gone. -/
structure Update.ReportsChange (m : SelectionModel K T) (u : Update K T) : Prop where
  once : u.reports = [] ∨ u.reports = [u.model.selection]
  changed : m.config.allowRepeats = false →
    (u.reports ≠ [] ↔ ¬ m.selectedKeys.SameMembers u.model.selectedKeys ∨
      m.selection.isAll ≠ u.model.selection.isAll)

/-- A change of the setting is heard of exactly if a stored key can no longer be selected, and then
once, as the keys that remain. -/
structure Update.ReportsLoss (m : SelectionModel K T) (u : Update K T) : Prop where
  lost : ∀ s, m.selection = .keys s → (∃ k ∈ s.items, ¬ u.model.canSelect k) →
    u.reports = [.keys (s.filter u.model.canSelect)] ∧
      u.model.selection = .keys (s.filter u.model.canSelect)
  kept : (∀ s, m.selection = .keys s → ∀ k ∈ s.items, u.model.canSelect k) →
    u.reports = [] ∧ u.model.selection = m.selection

/-- The revision has grown by one if what is stored has other members, and not otherwise. -/
structure Update.Counts (m : SelectionModel K T) (u : Update K T) : Prop where
  same : m.selection.Alike u.model.selection → u.model.revision = m.revision
  other : ¬ m.selection.Alike u.model.selection → u.model.revision = m.revision + 1

namespace SelectionModel

variable {m : SelectionModel K T} {next : Selection K}

/-! ## When a proposal differs -/

theorem differs_iff :
    m.differs next ↔ ¬ m.selectedKeys.SameMembers (m.resolve next) ∨
      m.selection.isAll ≠ next.isAll := by
  unfold differs isSelectionEqual
  rw [Bool.or_eq_true, bne_iff_ne, Bool.not_eq_true', ← Bool.not_eq_true, KeySet.sameKeysHashed_iff]
  rfl

theorem items_resolve_of_knows {s : KeySet K} (h : m.Knows (.keys s)) :
    (m.resolve (.keys s)).items = s.items :=
  List.filter_eq_self.2 h

/-- If all keys are in the collection, a proposal that does not differ is alike. -/
theorem alike_of_not_differs (hm : m.Knows m.selection) (hnext : m.Knows next)
    (h : ¬ m.differs next) : m.selection.Alike next := by
  rw [differs_iff, not_or, Classical.not_not, Classical.not_not] at h
  obtain ⟨hsame, hall⟩ := h
  cases hsel : m.selection with
  | all =>
    rw [hsel] at hall
    rw [Selection.isAll_iff.1 (hall.symm.trans rfl)]
    trivial
  | keys s =>
    cases next with
    | all =>
      rw [hsel] at hall
      cases hall
    | keys t =>
      -- resolving only drops keys that the collection lacks, and neither set has one
      intro k
      have hk := hsame k
      rw [selectedKeys, hsel] at hk
      rw [hsel] at hm
      rwa [items_resolve_of_knows hm, items_resolve_of_knows hnext] at hk

/-! ## Gestures -/

theorem counts_still (m : SelectionModel K T) : m.still.Counts m :=
  ⟨fun _ => rfl, fun h => absurd (Selection.Alike.refl _) h⟩

theorem counts_adopt (hc : m.controlled = false) (next : Selection K) :
    (m.adopt next).Counts m := by
  have hstore : (m.adopt next).model = m.store next := by simp [adopt, hc]
  refine ⟨fun h => ?_, fun h => ?_⟩
  · rw [hstore] at h ⊢
    exact if_pos (Selection.sameHashed_iff.2 h)
  · rw [hstore] at h ⊢
    exact if_neg fun hsame => h (Selection.sameHashed_iff.1 hsame)

theorem counts_propose (hc : m.controlled = false) (hm : m.Knows m.selection)
    (hnext : m.Knows next) : (m.propose next).Counts m := by
  unfold propose
  split
  · exact counts_adopt hc next
  · next h =>
    rw [Bool.or_eq_true, not_or] at h
    have halike : m.selection.Alike next := alike_of_not_differs hm hnext h.1
    -- the roles are stored without a count, so the members must be the same
    rw [if_neg (by simp [hc])]
    exact ⟨fun _ => rfl, fun hother => absurd halike hother⟩

theorem reportsChange_propose (hc : m.controlled = false) (ho : m.observed = true)
    (next : Selection K) : (m.propose next).ReportsChange m := by
  have setting := sameSetting_propose m next
  have hstored : (m.propose next).model.selection = next := by rw [selection_propose, hc]; rfl
  have hreports := reports_propose m next
  rw [ho, Bool.and_true] at hreports
  refine ⟨?_, fun hrepeats => ?_⟩
  · rw [hreports, hstored]
    split
    · exact Or.inr rfl
    · exact Or.inl rfl
  · have hkeys : (m.propose next).model.selectedKeys = m.resolve next := by
      rw [selectedKeys, setting.resolve, hstored]
    rw [hreports, hstored, hkeys, hrepeats, Bool.or_false, ← differs_iff]
    cases m.differs next <;> simp

theorem reportsChange_still (m : SelectionModel K T) : m.still.ReportsChange m := by
  refine ⟨Or.inl rfl, fun _ => iff_of_false (fun h => h rfl) ?_⟩
  rintro (hsame | hall)
  · exact hsame fun _ => Iff.rfl
  · exact hall rfl

theorem reportsChange_gesture (hc : m.controlled = false) (ho : m.observed = true) (g : Gesture K) :
    (m.gesture g).ReportsChange m := by
  rcases gesture_cases m g with h | ⟨next, -, h⟩
  · rw [h]
    exact reportsChange_still m
  · rw [h]
    exact reportsChange_propose hc ho next

theorem counts_gesture (hc : m.controlled = false) (hm : m.Knows m.selection) (g : Gesture K) :
    (m.gesture g).Counts m := by
  rcases gesture_cases m g with h | ⟨next, hnext, h⟩
  · rw [h]
    exact counts_still m
  · rw [h]
    exact counts_propose hc hm hnext.knows

/-! ## Changes of the setting

The setting changes first and pruning follows, so both laws compare with the model `before` the
change, which stores what `m` stores. -/

theorem reportsLoss_prune {before : SelectionModel K T} (hsel : m.selection = before.selection)
    (hc : m.controlled = false) (ho : m.observed = true) : m.prune.ReportsLoss before := by
  have setting := sameSetting_prune m
  rcases prune_cases m with ⟨hadm, h⟩ | ⟨s, hs, ⟨k, hk, hcan⟩, h⟩
  · refine ⟨fun s hs ⟨k, hk, hcan⟩ => ?_, fun _ => ?_⟩
    · rw [hsel, hs] at hadm
      rw [setting.canSelect] at hcan
      exact absurd (hadm k hk) hcan
    · rw [h]
      exact ⟨rfl, hsel⟩
  · refine ⟨fun s' hs' _ => ?_, fun hall => ?_⟩
    · rw [← hsel, hs] at hs'
      cases hs'
      rw [setting.canSelect, h, reports_adopt, selection_adopt, ho, hc]
      exact ⟨rfl, rfl⟩
    · rw [setting.canSelect] at hall
      exact absurd (hall s (hsel ▸ hs) k hk) hcan

theorem counts_prune (hc : m.controlled = false) : m.prune.Counts m := by
  rcases prune_cases m with ⟨-, h⟩ | ⟨s, -, -, h⟩
  · rw [h]
    exact counts_still m
  · rw [h]
    exact counts_adopt hc _

theorem reportsLoss_setDisabled (hc : m.controlled = false) (ho : m.observed = true) (ks : List K) :
    (m.setDisabled ks).ReportsLoss m :=
  reportsLoss_prune rfl hc ho

theorem counts_setDisabled (hc : m.controlled = false) (ks : List K) :
    (m.setDisabled ks).Counts m :=
  have h := counts_prune (m := { m with disabledKeys := Std.HashSet.ofList ks }) hc
  ⟨h.same, h.other⟩

/-- A row that has been disabled cannot be selected. -/
theorem not_canSelect_setDisabled {k : K} {ks : List K} (hk : k ∈ ks) :
    ¬ (m.setDisabled ks).model.canSelect k := by
  have setting := sameSetting_prune { m with disabledKeys := Std.HashSet.ofList ks }
  intro hcan
  have henabled := (canSelect_iff.1 hcan).2.1
  rw [setDisabled, setting.disabledKeys, Std.HashSet.contains_ofList,
    List.contains_iff_mem.2 hk] at henabled
  cases henabled

theorem setEdition_of_ne {e : Edition K T} (he : e.number ≠ m.edition.number) :
    m.setEdition e = { m with edition := e, focus := m.refocus e }.prune :=
  if_neg he

theorem reportsLoss_setEdition (hc : m.controlled = false) (ho : m.observed = true)
    {e : Edition K T} (he : e.number ≠ m.edition.number) : (m.setEdition e).ReportsLoss m := by
  rw [setEdition_of_ne he]
  exact reportsLoss_prune rfl hc ho

theorem counts_setEdition (hc : m.controlled = false) (e : Edition K T) :
    (m.setEdition e).Counts m := by
  by_cases he : e.number = m.edition.number
  · have hstill : m.setEdition e = m.still := if_pos he
    rw [hstill]
    exact counts_still m
  · have h := counts_prune (m := { m with edition := e, focus := m.refocus e }) hc
    rw [setEdition_of_ne he]
    exact ⟨h.same, h.other⟩

/-- **Announcements and revisions.** In every reachable model without an owner and with a listener:
each gesture reports what it changes and each change of the setting reports what it loses; the same
edition again does nothing at all; and every one of them counts. -/
theorem reachable_announces {start : SelectionModel K T} (h : Built start)
    (ops : List (Operation K T)) (hm : m = (start.run ops).model) (hc : m.controlled = false)
    (ho : m.observed = true) :
    (∀ g, (m.gesture g).ReportsChange m ∧ (m.gesture g).Counts m) ∧
    (∀ ks, (m.setDisabled ks).ReportsLoss m ∧ (m.setDisabled ks).Counts m) ∧
    (∀ e, e.number ≠ m.edition.number → (m.setEdition e).ReportsLoss m) ∧
    (∀ e, e.number = m.edition.number → m.setEdition e = m.still) ∧
    ∀ e, (m.setEdition e).Counts m := by
  have hconsistent := h.consistent.run ops
  rw [← hm] at hconsistent
  have hknows := hconsistent.knows hc
  refine ⟨fun g => ⟨reportsChange_gesture hc ho g, counts_gesture hc hknows g⟩,
    fun ks => ⟨reportsLoss_setDisabled hc ho ks, counts_setDisabled hc ks⟩,
    fun e he => reportsLoss_setEdition hc ho he, fun e he => if_pos he,
    fun e => counts_setEdition hc e⟩

/-- The two rows, in a list that is listened to. -/
def heardRows (c : Collection Nat Unit) : SelectionModel Nat Unit :=
  (SelectionModel.new ⟨0, c⟩ { mode := .multiple }).setObserved true

/-- Where nothing was selected, flipping the enabled row selects it. -/
theorem toggle_heardRows {c : Collection Nat Unit} (hc : Collection.ofForest twoRows = .ok c) :
    (heardRows c).gesture (.toggle 1) = (heardRows c).adopt (.keys (.single 1)) := by
  have hone : (heardRows c).canSelect 1 := by
    change (SelectionModel.new ⟨0, c⟩ { mode := .multiple }).canSelect 1
    rw [canSelect_new_iff hc]
    decide
  have hdiffers : (heardRows c).differs (.keys (.single 1)) := by
    refine differs_iff.2 (Or.inl fun hsame => ?_)
    have hadded : 1 ∈ ((heardRows c).resolve (.keys (.single 1))).items :=
      List.mem_filter.2 ⟨List.mem_singleton_self 1, contains_of_canSelect hone⟩
    exact absurd ((hsame 1).2 hadded) List.not_mem_nil
  have hproposes : (heardRows c).toggle 1 = (heardRows c).propose (.keys (.single 1)) := by
    unfold toggle
    rw [hone]
    rfl
  rw [gesture, hproposes, propose, hdiffers]
  rfl

/-- The one row that can be selected is selected, which is announced; clearing is a gesture, and
disabling the row loses its key, so that the empty key set is announced and stored. -/
theorem reachable_announces_twoRows :
    ∃ c, Collection.ofForest twoRows = .ok c ∧
      let start := heardRows c
      let m := (start.run [.gesture (.toggle 1)]).model
      Built start ∧ m.controlled = false ∧ m.observed = true ∧
        ((m.gesture .clear).ReportsChange m ∧ (m.gesture .clear).Counts m) ∧
        ((m.setDisabled [1]).ReportsLoss m ∧ (m.setDisabled [1]).Counts m) ∧
        (start.run [.gesture (.toggle 1)]).reports = [.keys (.single 1)] ∧
        (m.setDisabled [1]).reports = [.keys .empty] ∧
        (m.setDisabled [1]).model.selection = .keys .empty := by
  obtain ⟨c, hc⟩ := Collection.exists_ofForest_ok_iff.2 (show twoRows.keys.Nodup by decide)
  have hstart : Built (heardRows c) := .setObserved (.new ⟨0, c⟩ { mode := .multiple }) true
  have setting := sameSetting_gesture (heardRows c) (.toggle 1)
  have hlaws := reachable_announces hstart [.gesture (.toggle 1)] rfl setting.controlled
    setting.observed
  have hrun : (heardRows c).run [.gesture (.toggle 1)] =
      ⟨(heardRows c).store (.keys (.single 1)), [.keys (.single 1)]⟩ := by
    simp only [run, apply, toggle_heardRows hc]
    rfl
  -- the only stored key is the one that is disabled
  let after := (((heardRows c).run [.gesture (.toggle 1)]).model.setDisabled [1]).model
  have hgone : ¬ after.canSelect 1 := not_canSelect_setDisabled (List.mem_singleton_self 1)
  have hnone : KeySet.filter (.single 1) after.canSelect = .empty := by
    simp [KeySet.filter, KeySet.single, KeySet.empty, hgone]
  obtain ⟨hreports, hstored⟩ := (hlaws.2.1 [1]).1.lost (.single 1)
    (by rw [hrun]; rfl) ⟨1, List.mem_singleton_self 1, hgone⟩
  rw [hnone] at hreports hstored
  exact ⟨c, hc, hstart, setting.controlled, setting.observed, hlaws.1 .clear, hlaws.2.1 [1],
    congrArg Update.reports hrun, hreports, hstored⟩

end SelectionModel

end Listbox
