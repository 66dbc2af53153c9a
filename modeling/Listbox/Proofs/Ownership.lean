import Listbox.Proofs.Announcement

set_option autoImplicit false

/-! # Only the owner changes the selection

A model with an owner works out every change and stores none. Whatever it proposes or prunes, it
announces just what it would announce if nobody owned the selection, and the selection stays as the
owner gave it, ends of the range and order included.

What a gesture proposes does not depend on the owner (`proposes_withOwner_iff`), and neither does
what is announced of a proposal. `leavesToOwner_apply` says this of one operation, and
`owner_decides` of runs: the selection is always the one that was handed over last. -/

universe u v

namespace Listbox

variable {K : Type u} {T : Type v} [DecidableEq K] [Hashable K]

namespace SelectionModel

/-- The same model with an owner, or without one. -/
def withOwner (m : SelectionModel K T) (owned : Bool) : SelectionModel K T :=
  { m with controlled := owned }

end SelectionModel

/-- The outcome of an operation on `m` leaves the selection to the owner: it is stored as before, and
the setting and the announcements are those of `free`, the outcome of the same operation without an
owner. -/
structure Update.LeavesToOwner (m : SelectionModel K T) (u free : Update K T) : Prop where
  selection : u.model.selection = m.selection
  revision : u.model.revision = m.revision
  reports : u.reports = free.reports
  setting : SelectionModel.SameSetting (free.model.withOwner true) u.model

/-- The owner hands a selection over. -/
def Operation.HandsOver (op : Operation K T) : Prop := ∃ sel, op = .setControlled sel

namespace SelectionModel

variable {m m' : SelectionModel K T} {g : Gesture K} {next : Selection K}

/-! ## What does not depend on the owner -/

theorem Proposes.withOwner (h : m.Proposes g next) (owned : Bool) :
    (m.withOwner owned).Proposes g next := by
  cases h with
  | replace k hk => exact .replace k hk
  | exchange k hk hmode hsel => exact .exchange k hk hmode hsel
  | switchOff k hk hsel hlive hlast => exact .switchOff k hk hsel hlive hlast
  | switchOn k hk hsel hlive => exact .switchOn k hk hsel hlive
  | extendSingle k hk hmode => exact .extendSingle k hk hmode
  | extendAll k hmode hk hall => exact .extendAll k hmode hk hall
  | stretch k hmode hk hall => exact .stretch k hmode hk hall
  | select ks hmode => exact .select ks hmode
  | selectAll hmode => exact .selectAll hmode
  | clear hsome hempty => exact .clear hsome hempty
  | allOff hall hsome hempty => exact .allOff hall hsome hempty
  | allOn hall hmode => exact .allOn hall hmode

/-- A gesture proposes the same with and without an owner. -/
theorem proposes_withOwner_iff (owned : Bool) :
    (m.withOwner owned).Proposes g next ↔ m.Proposes g next :=
  ⟨fun h => h.withOwner m.controlled, fun h => h.withOwner owned⟩

theorem reports_propose_withOwner (owned : Bool) :
    ((m.withOwner owned).propose next).reports = (m.propose next).reports := by
  rw [reports_propose, reports_propose]
  rfl

theorem reports_gesture_withOwner (owned : Bool) (g : Gesture K) :
    ((m.withOwner owned).gesture g).reports = (m.gesture g).reports := by
  rcases gesture_cases m g with hstill | ⟨next, hnext, hprop⟩
  · rcases gesture_cases (m.withOwner owned) g with hstill' | ⟨next, hnext, hprop⟩
    · rw [hstill, hstill']
      rfl
    · have hsame := (proposes_withOwner_iff owned).1 hnext
      rw [hprop, hsame.gesture_eq, reports_propose_withOwner]
  · rw [(hnext.withOwner owned).gesture_eq, hprop, reports_propose_withOwner]

theorem reports_prune_withOwner (owned : Bool) :
    (m.withOwner owned).prune.reports = m.prune.reports := by
  rcases prune_cases m with ⟨hadm, hstill⟩ | ⟨s, hs, ⟨k, hk, hcan⟩, hadopt⟩
  · rcases prune_cases (m.withOwner owned) with ⟨-, hstill'⟩ | ⟨s, hs, ⟨k, hk, hcan⟩, -⟩
    · rw [hstill, hstill']
      rfl
    · change m.selection = .keys s at hs
      rw [hs] at hadm
      exact absurd (hadm k hk) hcan
  · rcases prune_cases (m.withOwner owned) with ⟨hadm, -⟩ | ⟨s', hs', -, hadopt'⟩
    · change m.Admits m.selection at hadm
      rw [hs] at hadm
      exact absurd (hadm k hk) hcan
    · change m.selection = .keys s' at hs'
      rw [hs] at hs'
      cases hs'
      rw [hadopt, hadopt', reports_adopt, reports_adopt]
      rfl

/-! ## What an owner keeps from changing -/

theorem model_gesture_of_controlled (hc : m.controlled = true) (g : Gesture K) :
    (m.gesture g).model = m := by
  rcases gesture_cases m g with hstill | ⟨next, -, hprop⟩
  · rw [hstill]
    rfl
  · rw [hprop, model_propose_of_controlled hc]

theorem model_prune_of_controlled (hc : m.controlled = true) : m.prune.model = m := by
  rcases prune_cases m with ⟨-, hstill⟩ | ⟨s, -, -, hadopt⟩
  · rw [hstill]
    rfl
  · rw [hadopt]
    exact if_pos hc

/-! ## One operation -/

/-- What stays the same without an owner stays the same when the owner is put back. -/
theorem SameSetting.withOwner (h : SameSetting (m.withOwner false) m') (hc : m.controlled = true) :
    SameSetting (m'.withOwner true) m where
  edition := h.edition.symm
  config := h.config.symm
  disabledKeys := h.disabledKeys.symm
  controlled := hc
  observed := h.observed.symm
  focus := h.focus.symm

theorem leavesToOwner_gesture (hc : m.controlled = true) (g : Gesture K) :
    (m.gesture g).LeavesToOwner m ((m.withOwner false).gesture g) := by
  have hmodel := model_gesture_of_controlled hc g
  refine ⟨by rw [hmodel], by rw [hmodel], (reports_gesture_withOwner false g).symm, ?_⟩
  rw [hmodel]
  exact (sameSetting_gesture (m.withOwner false) g).withOwner hc

/-- Pruning follows a change of the setting, so it is compared with the model `before` that. -/
theorem leavesToOwner_prune {before : SelectionModel K T} (hc : m.controlled = true)
    (hsel : m.selection = before.selection) (hrev : m.revision = before.revision) :
    m.prune.LeavesToOwner before (m.withOwner false).prune := by
  have hmodel := model_prune_of_controlled hc
  refine ⟨by rw [hmodel, hsel], by rw [hmodel, hrev], (reports_prune_withOwner false).symm, ?_⟩
  rw [hmodel]
  exact (sameSetting_prune (m.withOwner false)).withOwner hc

/-- Changes of the focus and of what a plain gesture does announce nothing. -/
theorem leavesToOwner_still {before : SelectionModel K T} (hc : m.controlled = true)
    (hsel : m.selection = before.selection) (hrev : m.revision = before.revision) :
    m.still.LeavesToOwner before (m.withOwner false).still :=
  ⟨hsel, hrev, rfl, (SameSetting.refl (m.withOwner false)).withOwner hc⟩

theorem leavesToOwner_setFocusedKey (hc : m.controlled = true) (k : Option K)
    (child : Option FocusStrategy) :
    (m.setFocusedKey k child).still.LeavesToOwner m
      ((m.withOwner false).setFocusedKey k child).still := by
  by_cases hk : k.all m.collection.contains = true
  · have hmoved : ∀ n : SelectionModel K T, k.all n.collection.contains = true →
        n.setFocusedKey k child = { n with focus := { n.focus with key := k, child } } :=
      fun n hn => if_pos hn
    rw [hmoved m hk, hmoved (m.withOwner false) hk]
    exact leavesToOwner_still hc rfl rfl
  · have hignored : ∀ n : SelectionModel K T, ¬ k.all n.collection.contains = true →
        n.setFocusedKey k child = n := fun n hn => if_neg hn
    rw [hignored m hk, hignored (m.withOwner false) hk]
    exact leavesToOwner_still hc rfl rfl

theorem leavesToOwner_setEdition (hc : m.controlled = true) (e : Edition K T) :
    (m.setEdition e).LeavesToOwner m ((m.withOwner false).setEdition e) := by
  by_cases he : e.number = m.edition.number
  · have hsame : ∀ n : SelectionModel K T, n.edition = m.edition → n.setEdition e = n.still :=
      fun n hn => if_pos (hn ▸ he)
    rw [hsame m rfl, hsame (m.withOwner false) rfl]
    exact leavesToOwner_still hc rfl rfl
  · rw [setEdition_of_ne he, setEdition_of_ne (m := m.withOwner false) he]
    exact leavesToOwner_prune hc rfl rfl

/-- **One operation.** An operation that is no hand-over leaves the selection to the owner. -/
theorem leavesToOwner_apply (hc : m.controlled = true) {op : Operation K T}
    (hop : ¬ op.HandsOver) : (m.apply op).LeavesToOwner m ((m.withOwner false).apply op) := by
  cases op with
  | gesture g => exact leavesToOwner_gesture hc g
  | setControlled sel => exact absurd ⟨sel, rfl⟩ hop
  | setDisabled ks => exact leavesToOwner_prune hc rfl rfl
  | setBehavior | setFocused | setFocusVisible | setObserved => exact leavesToOwner_still hc rfl rfl
  | setFocusedKey k child => exact leavesToOwner_setFocusedKey hc k child
  | setEdition e => exact leavesToOwner_setEdition hc e

/-! ## Runs -/

/-- As long as nothing is handed over, the selection stays as it is. -/
theorem stored_run_of_controlled (hc : m.controlled = true) {ops : List (Operation K T)}
    (hops : ∀ op ∈ ops, ¬ op.HandsOver) :
    (m.run ops).model.selection = m.selection ∧ (m.run ops).model.revision = m.revision := by
  induction ops generalizing m with
  | nil => exact ⟨rfl, rfl⟩
  | cons op ops ih =>
    have hstep := leavesToOwner_apply hc (hops op List.mem_cons_self)
    have hrest := ih ((sameTerms_apply m op).controlled.trans hc)
      fun op' hop' => hops op' (List.mem_cons_of_mem _ hop')
    change ((m.apply op).model.run ops).model.selection = m.selection ∧
      ((m.apply op).model.run ops).model.revision = m.revision
    rw [hrest.1, hrest.2]
    exact ⟨hstep.selection, hstep.revision⟩

theorem model_run_append (m : SelectionModel K T) (ops ops' : List (Operation K T)) :
    (m.run (ops ++ ops')).model = ((m.run ops).model.run ops').model := by
  induction ops generalizing m with
  | nil => rfl
  | cons op ops ih => exact ih (m.apply op).model

/-- After a hand-over, what the model may store of it is what stays stored. -/
theorem selection_run_of_handover (hc : m.controlled = true) (before : List (Operation K T))
    (sel : Selection K) {since : List (Operation K T)} (hsince : ∀ op ∈ since, ¬ op.HandsOver) :
    (m.run (before ++ .setControlled sel :: since)).model.selection =
      (m.run before).model.admissible sel := by
  have howned : (m.run before).model.controlled = true := (sameTerms_run m before).controlled.trans hc
  rw [model_run_append]
  exact (stored_run_of_controlled (m := ((m.run before).model.setControlled sel).model) howned
    hsince).1

/-- **Only the owner changes the selection.** In a model with an owner, however it has come about,
every operation that is no hand-over leaves the selection, its order, its ends and its revision as
they are, and announces what it would announce without an owner. So does every run of such
operations, and after a run with hand-overs the last of them is what is stored. -/
theorem owner_decides (hc : m.controlled = true) :
    (∀ op : Operation K T, ¬ op.HandsOver →
      (m.apply op).LeavesToOwner m ((m.withOwner false).apply op)) ∧
    (∀ ops : List (Operation K T), (∀ op ∈ ops, ¬ op.HandsOver) →
      (m.run ops).model.selection = m.selection ∧ (m.run ops).model.revision = m.revision) ∧
    ∀ (before since : List (Operation K T)) (sel : Selection K), (∀ op ∈ since, ¬ op.HandsOver) →
      (m.run (before ++ .setControlled sel :: since)).model.selection =
        (m.run before).model.admissible sel :=
  ⟨fun _ hop => leavesToOwner_apply hc hop, fun _ hops => stored_run_of_controlled hc hops,
    fun before _ sel hsince => selection_run_of_handover hc before sel hsince⟩

/-- The selected row is disabled: the owner hears that nothing is left, and the row stays
selected. -/
theorem owner_decides_twoRows :
    ∃ c, Collection.ofForest twoRows = .ok c ∧
      let m := ((SelectionModel.new ⟨0, c⟩ { mode := .multiple }).controlledBy
        (.keys (.ofList [1]))).setObserved true
      m.controlled = true ∧ (∃ s, (m.setDisabled [1]).reports = [.keys s] ∧ 1 ∉ s.items) ∧
        (m.setDisabled [1]).model.selection = m.selection ∧ m.isSelected 1 := by
  obtain ⟨c, hc⟩ := Collection.exists_ofForest_ok_iff.2 (show twoRows.keys.Nodup by decide)
  let start := SelectionModel.new ⟨0, c⟩ { mode := .multiple }
  let m := (start.controlledBy (.keys (.ofList [1]))).setObserved true
  have hleft := (owner_decides (m := m) rfl).1 (.setDisabled [1]) nofun
  have hone : start.canSelect 1 := by
    rw [canSelect_new_iff hc]
    decide
  have hstored : m.selection = .keys ((KeySet.ofList [1]).filter start.canSelect) := rfl
  have hmem : 1 ∈ ((KeySet.ofList [1]).filter start.canSelect).items :=
    List.mem_filter.2 ⟨by decide, hone⟩
  have hgone : ¬ ((m.withOwner false).setDisabled [1]).model.canSelect 1 :=
    not_canSelect_setDisabled (List.mem_singleton_self 1)
  obtain ⟨hreports, -⟩ :=
    (reportsLoss_setDisabled (m := m.withOwner false) rfl rfl [1]).lost _ hstored ⟨1, hmem, hgone⟩
  refine ⟨c, hc, rfl, ⟨_, hleft.reports.trans hreports, fun h => ?_⟩, hleft.selection, ?_⟩
  · rw [KeySet.items_filter] at h
    exact hgone (List.mem_filter.1 h).2
  · have hthere : m.collection.contains 1 := contains_of_canSelect hone
    have hin : ((KeySet.ofList [1]).filter start.canSelect).contains 1 = true :=
      KeySet.contains_iff.2 hmem
    change (m.mode != .none && (KeySet.contains _ 1 && m.collection.contains 1)) = true
    rw [hin, hthere]
    rfl

end SelectionModel

end Listbox
