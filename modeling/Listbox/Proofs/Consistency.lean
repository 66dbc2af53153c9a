import Listbox.Collection.Search
import Listbox.Proofs.Proposal

set_option autoImplicit false

/-! # Reachable models are consistent

What a model stores fits its mode, its focus is on a row of the collection, and without an owner it
stores no key that the collection lacks. All three hold from the start and every operation keeps
them: a gesture because proposals keep within the mode and name only rows of the collection, a
change of the setting because pruning follows it.

`reachable_consistent` says what this comes to, for every way to set a model up and every run of
operations after that. -/

universe u v

namespace Listbox.SelectionModel

variable {K : Type u} {T : Type v} [DecidableEq K] [Hashable K]
variable {m m' : SelectionModel K T}

/-- The models that exist before the first operation. -/
inductive Built : SelectionModel K T → Prop where
  | new (e : Edition K T) (config : SelectionConfig K) : Built (.new e config)
  | withSelection {m : SelectionModel K T} (hm : Built m) (sel : Selection K) :
      Built (m.withSelection sel)
  | controlledBy {m : SelectionModel K T} (hm : Built m) (sel : Selection K) :
      Built (m.controlledBy sel)
  | setObserved {m : SelectionModel K T} (hm : Built m) (on : Bool) : Built (m.setObserved on)

/-- What every operation keeps. -/
structure Consistent (m : SelectionModel K T) : Prop where
  allows : m.mode.Allows m.selection
  /-- An owner may hold keys that the collection has lost. -/
  knows : m.controlled = false → m.Knows m.selection
  focus : ∀ k, m.focus.key = some k → m.collection.contains k

/-! ## Operations within one setting -/

theorem Consistent.of_sameSetting (h : m.Consistent) (hs : SameSetting m m')
    (hsel : m'.selection = m.selection ∨ m.mode.Allows m'.selection ∧ m.Knows m'.selection) :
    m'.Consistent where
  allows := by
    rw [hs.mode]
    rcases hsel with heq | ⟨hallows, -⟩
    · rw [heq]
      exact h.allows
    · exact hallows
  knows hcontrolled := by
    rw [hs.knows]
    rcases hsel with heq | ⟨-, hknows⟩
    · rw [heq]
      exact h.knows (hs.controlled ▸ hcontrolled)
    · exact hknows
  focus k hk := by
    rw [hs.collection]
    exact h.focus k (hs.focus ▸ hk)

theorem Consistent.gesture (h : m.Consistent) (g : Gesture K) : (m.gesture g).model.Consistent := by
  rcases gesture_cases m g with hstill | ⟨next, hnext, hprop⟩
  · rw [hstill]
    exact h
  · rw [hprop]
    refine h.of_sameSetting (sameSetting_propose m next) ?_
    rw [selection_propose]
    cases m.controlled with
    | true => exact Or.inl rfl
    | false => exact Or.inr ⟨hnext.allows h.allows, hnext.knows⟩

theorem Consistent.setControlled (h : m.Consistent) (sel : Selection K) :
    (m.setControlled sel).model.Consistent :=
  h.of_sameSetting (sameSetting_store m _)
    (Or.inr ⟨allows_admissible sel, (admits_admissible sel).knows⟩)

/-! ## Operations that change the setting -/

/-- Pruning makes a model consistent, whichever keys it has lost. -/
theorem consistent_prune (hallows : m.mode.Allows m.selection)
    (hfocus : ∀ k, m.focus.key = some k → m.collection.contains k) : m.prune.model.Consistent := by
  rcases prune_cases m with ⟨hadm, hstill⟩ | ⟨s, hs, -, hadopt⟩
  · rw [hstill]
    exact ⟨hallows, fun _ => hadm.knows, hfocus⟩
  · have setting := sameSetting_adopt m (.keys (s.filter m.canSelect))
    rw [hadopt]
    refine ⟨?_, fun hcontrolled => ?_, fun k hk => ?_⟩
    · rw [setting.mode, selection_adopt]
      split
      · exact hallows
      · exact allows_filter (hs ▸ hallows) _
    · rw [setting.controlled] at hcontrolled
      rw [setting.knows, selection_adopt, hcontrolled]
      exact (admits_filter s).knows
    · rw [setting.collection]
      exact hfocus k (setting.focus ▸ hk)

theorem Consistent.setDisabled (h : m.Consistent) (ks : List K) :
    (m.setDisabled ks).model.Consistent :=
  consistent_prune h.allows h.focus

theorem exists_of_nearestFocusable? {index : Nat} {k : K} (h : m.nearestFocusable? index = some k) :
    ∃ n ∈ m.collection.toList, n.key = k ∧ m.isFocusable n = true := by
  obtain ⟨n, hn, hkey⟩ := Option.map_eq_some_iff.1 h
  have hmem : n ∈ m.collection.toList ∧ m.isFocusable n = true := by
    rcases Option.or_eq_some_iff.1 hn with hn | ⟨-, hn⟩
    · exact Collection.mem_of_findFrom? hn
    · exact Collection.mem_of_findBefore? hn
  exact ⟨n, hmem.1, hkey, hmem.2⟩

theorem contains_of_nearestFocusable? {index : Nat} {k : K}
    (h : m.nearestFocusable? index = some k) : m.collection.contains k := by
  obtain ⟨n, hn, rfl, -⟩ := exists_of_nearestFocusable? h
  exact Collection.contains_iff_mem_keys.2 (List.mem_map_of_mem hn)

/-- The focus moves on to rows of the new collection. -/
theorem contains_of_refocus {e : Edition K T} {k : K} (h : (m.refocus e).key = some k) :
    e.collection.contains k := by
  unfold refocus at h
  split at h
  · next hnone => rw [hnone] at h; cases h
  · next k' hk' =>
    split at h
    · next hkept =>
      rw [hk'] at h
      cases h
      exact hkept
    · obtain ⟨n, -, hn⟩ := Option.bind_eq_some_iff.1 h
      exact contains_of_nearestFocusable? hn

theorem Consistent.setEdition (h : m.Consistent) (e : Edition K T) :
    (m.setEdition e).model.Consistent := by
  unfold SelectionModel.setEdition
  split
  · exact h
  · exact consistent_prune h.allows fun k hk => contains_of_refocus hk

theorem Consistent.setFocusedKey (h : m.Consistent) (k : Option K) (child : Option FocusStrategy) :
    (m.setFocusedKey k child).Consistent := by
  unfold SelectionModel.setFocusedKey
  split
  · next hk =>
    refine ⟨h.allows, h.knows, fun k' hk' => ?_⟩
    change k = some k' at hk'
    rw [hk'] at hk
    exact hk
  · exact h

/-! ## Runs -/

theorem Consistent.apply (h : m.Consistent) (op : Operation K T) :
    (m.apply op).model.Consistent := by
  cases op with
  | gesture g => exact h.gesture g
  | setControlled sel => exact h.setControlled sel
  | setDisabled ks => exact h.setDisabled ks
  | setFocusedKey k child => exact h.setFocusedKey k child
  | setEdition e => exact h.setEdition e
  | setBehavior | setFocused | setFocusVisible | setObserved => exact ⟨h.allows, h.knows, h.focus⟩

theorem Consistent.run (h : m.Consistent) (ops : List (Operation K T)) :
    (m.run ops).model.Consistent := by
  induction ops generalizing m with
  | nil => exact h
  | cons op ops ih => exact ih (h.apply op)

theorem Built.consistent (h : Built m) : m.Consistent := by
  induction h with
  | new e config => exact ⟨SelectionMode.allows_empty _, fun _ => admits_empty.knows, nofun⟩
  | withSelection hm sel ih =>
    exact ⟨allows_admissible sel, fun _ => (admits_admissible sel).knows, ih.focus⟩
  | controlledBy hm sel ih => exact ⟨allows_admissible sel, nofun, ih.focus⟩
  | setObserved hm on ih => exact ⟨ih.allows, ih.knows, ih.focus⟩

/-- **Consistency.** However a model is set up and whatever happens to it, it stores no key in a mode
without selection, at most one where one may be selected, and "all" only where many may; it stores
no key twice; its focus is on a row of the collection; and without an owner so is all it stores. -/
theorem reachable_consistent (h : Built m) (ops : List (Operation K T)) :
    let r := (m.run ops).model
    (r.mode = .none → ∃ s, r.selection = .keys s ∧ s.items = []) ∧
    (r.mode = .single → ∃ s, r.selection = .keys s ∧ s.items.length ≤ 1) ∧
    (r.selection = .all → r.mode = .multiple) ∧
    (∀ s, r.selection = .keys s → s.items.Nodup) ∧
    (∀ k, r.focus.key = some k → k ∈ r.collection.keys) ∧
    (r.controlled = false → ∀ s, r.selection = .keys s → ∀ k ∈ s.items, k ∈ r.collection.keys) := by
  intro r
  have hr : r.Consistent := h.consistent.run ops
  refine ⟨fun hmode => ?_, fun hmode => ?_, fun hall => ?_, fun s _ => s.nodup, fun k hk => ?_,
    fun hcontrolled s hs k hk => ?_⟩
  · have hallows := hr.allows
    rwa [hmode] at hallows
  · have hallows := hr.allows
    rwa [hmode] at hallows
  · have hallows := hr.allows
    rw [hall] at hallows
    cases hmode : r.mode with
    | none | single =>
      rw [hmode] at hallows
      obtain ⟨s, hs, -⟩ := hallows
      cases hs
    | multiple => rfl
  · exact Collection.contains_iff_mem_keys.1 (hr.focus k hk)
  · have hknows := hr.knows hcontrolled
    rw [hs] at hknows
    exact Collection.contains_iff_mem_keys.1 (hknows k hk)

/-- An enabled row and a disabled one. -/
def twoRows : Forest (Entry Nat Unit) :=
  .tree (.item 1 "one" ()) .nil (.tree { Entry.item 2 "two" () with disabled := true } .nil .nil)

/-- From everything, a range reaches a disabled row, and the row that could be selected goes
away. -/
theorem reachable_consistent_twoRows :
    ∃ c, Collection.ofForest twoRows = .ok c ∧
      let m := (SelectionModel.new ⟨0, c⟩ { mode := .multiple }).withSelection .all
      let r := (m.run [.gesture (.extend 2), .setFocusedKey (some 1) none, .setDisabled [1]]).model
      Built m ∧ (∀ k, r.focus.key = some k → k ∈ r.collection.keys) ∧
        (r.controlled = false →
          ∀ s, r.selection = .keys s → ∀ k ∈ s.items, k ∈ r.collection.keys) := by
  obtain ⟨c, hc⟩ := Collection.exists_ofForest_ok_iff.2 (show twoRows.keys.Nodup by decide)
  have hm : Built ((SelectionModel.new ⟨0, c⟩ { mode := .multiple }).withSelection .all) :=
    .withSelection (.new ⟨0, c⟩ { mode := .multiple }) .all
  obtain ⟨-, -, -, -, hfocus, hknown⟩ := reachable_consistent hm
    [.gesture (.extend 2), .setFocusedKey (some 1) none, .setDisabled [1]]
  exact ⟨c, hc, hm, hfocus, hknown⟩

end Listbox.SelectionModel
