import Listbox.Proofs.Response

set_option autoImplicit false

/-! # Restraint

A list control tells its listener at most once of anything that happens to it, even of a click, which
is a press that begins and ends. And it keeps its word: what it answers as not used up has changed
nothing that can be selected, announced or acted on. -/

universe u v

namespace Listbox

variable {K : Type u} {T : Type v} [DecidableEq K] [Hashable K]

namespace SelectionModel

variable {m : SelectionModel K T} {u : Update K T}

theorem length_reports_propose (m : SelectionModel K T) (next : Selection K) :
    (m.propose next).reports.length ≤ 1 := by
  rw [reports_propose]
  split
  · exact Nat.le_refl 1
  · exact Nat.zero_le 1

theorem length_reports_gesture (m : SelectionModel K T) (g : Gesture K) :
    (m.gesture g).reports.length ≤ 1 := by
  rcases gesture_cases m g with h | ⟨next, -, h⟩
  · rw [h]
    exact Nat.zero_le 1
  · rw [h]
    exact length_reports_propose m next

theorem length_reports_prune (m : SelectionModel K T) : m.prune.reports.length ≤ 1 := by
  rcases prune_cases m with ⟨-, h⟩ | ⟨s, -, -, h⟩
  · rw [h]
    exact Nat.zero_le 1
  · rw [h, reports_adopt]
    split
    · exact Nat.le_refl 1
    · exact Nat.zero_le 1

theorem length_reports_apply (m : SelectionModel K T) (op : Operation K T) :
    (m.apply op).reports.length ≤ 1 := by
  cases op with
  | gesture g => exact length_reports_gesture m g
  | setDisabled ks => exact length_reports_prune _
  | setEdition e =>
    by_cases he : e.number = m.edition.number
    · have hstill : m.setEdition e = m.still := if_pos he
      rw [apply, hstill]
      exact Nat.zero_le 1
    · rw [apply, setEdition_of_ne he]
      exact length_reports_prune _
  | setControlled | setBehavior | setFocusedKey | setFocused | setFocusVisible | setObserved =>
    exact Nat.zero_le 1

theorem Undergoes.length_reports (h : m.Undergoes u) : u.reports.length ≤ 1 := by
  cases h with
  | rest focus => exact Nat.zero_le 1
  | gesture focus g => exact length_reports_gesture _ g

end SelectionModel

namespace ListControl

variable (l : ListControl K T) (e : Event K T)

theorem length_reports_handle : (l.handle e).reports.length ≤ 1 := by
  cases e with
  | poll now =>
    rcases l.poll_cases now with h | ⟨k, -, h⟩
    · rw [handle, h]
      exact Nat.zero_le 1
    · rw [handle, h]
      exact (l.undergoes_selectWith k .touch l.pressModifiers).length_reports
  | setEdition e => exact SelectionModel.length_reports_apply _ (.setEdition e)
  | operation op => exact SelectionModel.length_reports_apply _ op
  | _ =>
    rw [← Reaction.reports_updated]
    refine (l.undergoes_handle ?_).length_reports
    trivial

/-- An input that is answered as not used up has been ignored, and at most shows the focus. -/
theorem handle_of_unhandled {r : Response K} (hr : (l.handle e).result = .response r)
    (hunhandled : r.handled = false) :
    r = .ignored ∧ ∃ visible, (l.handle e).updated = (l.model.setFocusVisible visible).still := by
  cases e with
  | pressStart k pointer mods origin now =>
    cases hr
    exact (l.responds_pressStart k pointer mods origin now).ignored hunhandled
  | pressUp target point now =>
    cases hr
    exact (l.responds_pressUp target point now).ignored hunhandled
  | click k pointer mods now =>
    cases hr
    exact (l.responds_click k pointer mods now).ignored hunhandled
  | keyDown stroke mods layout now =>
    cases hr
    exact (l.responds_keyDown stroke mods layout now).ignored hunhandled
  | poll now =>
    cases hr
    rcases l.poll_cases now with h | ⟨k, -, h⟩
    · simp only [handle, h]
      exact ⟨rfl, l.model.focus.visible, rfl⟩
    · rw [h] at hunhandled
      cases hunhandled
  | pressMove | pressCancel | focusIn | focusOut | setEdition | operation => cases hr

/-- **Restraint.** Whatever happens to a list control, the listener hears of it once at most; and if
it is answered as not used up, nothing has been announced, no activation is asked for, and the
selection, its revision, the behaviour of the list and the focused row are as before. -/
theorem handle_restrained :
    (l.handle e).reports.length ≤ 1 ∧
    ∀ r, (l.handle e).result = .response r → r.handled = false →
      (l.handle e).reports = [] ∧ r.activation = none ∧
      (l.handle e).control.model.selection = l.model.selection ∧
      (l.handle e).control.model.revision = l.model.revision ∧
      (l.handle e).control.model.behavior = l.model.behavior ∧
      (l.handle e).control.model.focus.key = l.model.focus.key := by
  refine ⟨l.length_reports_handle e, fun r hr hunhandled => ?_⟩
  obtain ⟨rfl, visible, hupdated⟩ := l.handle_of_unhandled e hr hunhandled
  have hmodel : (l.handle e).control.model = l.model.setFocusVisible visible :=
    congrArg Update.model hupdated
  rw [hmodel]
  exact ⟨congrArg Update.reports hupdated, rfl, rfl, rfl, rfl, rfl⟩

/-- With nothing selected, the escape key is not used up. -/
theorem handle_restrained_twoRows :
    ∃ c, Collection.ofForest SelectionModel.twoRows = .ok c ∧
      let m := SelectionModel.new ⟨0, c⟩ { mode := .multiple }
      let l := ListControl.new (m.setObserved true) {}
      let e : Event Nat Unit := .keyDown .escape {} none 0
      (l.handle e).result = .response .ignored ∧ (l.handle e).reports = [] ∧
        (l.handle e).control.model.selection = l.model.selection := by
  obtain ⟨c, hc⟩ := Collection.exists_ofForest_ok_iff.2
    (show SelectionModel.twoRows.keys.Nodup by decide)
  refine ⟨c, hc, ?_⟩
  intro m l e
  have hr : (l.handle e).result = .response .ignored := rfl
  obtain ⟨-, hquiet⟩ := handle_restrained l e
  obtain ⟨hreports, -, hselection, -⟩ := hquiet _ hr rfl
  exact ⟨hr, hreports, hselection⟩

end ListControl

end Listbox
