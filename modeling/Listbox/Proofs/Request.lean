import Listbox.ListControl.Pointer
import Listbox.Proofs.Announcement
import Listbox.Proofs.Range

set_option autoImplicit false

/-! # Requests to select a row

An input that asks for a row to be selected comes to at most one gesture on the row, and a click to
at most one such request. On a row that can be selected such a gesture changes what is stored, or it
changes nothing at all: not the revision, nor how the list behaves. -/

universe u v

namespace Listbox

variable {K : Type u} {T : Type v} [DecidableEq K] [Hashable K]

/-- The gestures that a request to select a row comes to. -/
def Gesture.IsOn (g : Gesture K) (k : K) : Prop := g = .toggle k ∨ g = .replace k ∨ g = .extend k

namespace SelectionModel

variable {m : SelectionModel K T} {g : Gesture K} {next : Selection K} {k : K}

theorem not_isDisabled_of_canSelect (h : m.canSelect k) : m.isDisabled k = false := by
  unfold canSelect at h
  unfold isDisabled
  cases hn : m.collection.get? k with
  | none => simp [hn] at h
  | some n =>
    simp only [hn, Bool.and_eq_true, Bool.not_eq_true'] at h
    simp [h]

theorem store_self (h : m.selection.isEmpty = false) : m.store m.selection = m := by
  unfold store
  rw [if_pos (Selection.sameHashed_iff.2 (.refl m.selection)), if_neg]
  simp [h]

/-- A row that can be selected is in what replacing and extending propose for it. -/
theorem Proposes.not_isEmpty_of_canSelect (h : m.Proposes g next)
    (hg : g = .replace k ∨ g = .extend k) (hk : m.canSelect k) : next.isEmpty = false := by
  rcases hg with rfl | rfl
  · cases h with
    | replace => exact Selection.not_isEmpty_of_mem (k := k) (by simp)
  · cases h with
    | extendSingle | extendAll => exact Selection.not_isEmpty_of_mem (k := k) (by simp)
    | stretch _ _ hcontains =>
      refine Selection.not_isEmpty_of_mem (k := k) (mem_stretched_iff.2 (Or.inr ⟨hk, ?_⟩))
      exact isBetween_right (contains_rangeStart m _ hcontains) hcontains

/-- A row that can be selected is in what is proposed for it, unless that is news. -/
theorem Proposes.not_isEmpty_of_eq (h : m.Proposes g next) (hg : g.IsOn k) (hk : m.canSelect k)
    (hnext : next = m.selection) : next.isEmpty = false := by
  rcases hg with rfl | hg
  · cases h with
    | exchange => exact Selection.not_isEmpty_of_mem (k := k) (by simp)
    | switchOff _ _ _ hlive =>
      -- the row is not in the proposal, but it is in the stored selection
      rw [liveKeys_of_keys hnext.symm, KeySet.items_filter, List.mem_filter] at hlive
      exact absurd rfl (KeySet.mem_items_erase.1 hlive.1).1
    | switchOn => exact Selection.not_isEmpty_of_mem (k := k) (by simp)
  · exact h.not_isEmpty_of_canSelect hg hk

/-- A gesture on a row that can be selected changes what is stored, or nothing at all. -/
theorem gesture_quiet (hg : g.IsOn k) (hk : m.canSelect k)
    (h : (m.gesture g).model.selection = m.selection) : (m.gesture g).model = m := by
  rcases gesture_cases m g with hstill | ⟨next, hnext, hprop⟩
  · rw [hstill]
    rfl
  · cases hcontrolled : m.controlled with
    | true => rw [hprop, model_propose_of_controlled hcontrolled]
    | false =>
      have hsame : next = m.selection := (hnext.selection_gesture hcontrolled).symm.trans h
      have hsome := hnext.not_isEmpty_of_eq hg hk hsame
      subst hsame
      rw [hprop]
      unfold propose
      split
      · rw [adopt, hcontrolled]
        exact store_self hsome
      · split
        · rfl
        · rfl

end SelectionModel

namespace ListControl

variable {l : ListControl K T} {k : K}

theorem selectRow_cases (l : ListControl K T) (k : K) (pointer : PointerType) (mods : Modifiers) :
    l.selectRow k pointer mods = l.model.still ∨
      ∃ g, g.IsOn k ∧ l.selectRow k pointer mods = l.model.gesture g := by
  unfold selectRow
  split
  · exact Or.inl rfl
  · split
    · exact Or.inr ⟨.toggle k, Or.inl rfl, rfl⟩
    · exact Or.inr ⟨.replace k, Or.inr (Or.inl rfl), rfl⟩
  · split
    · exact Or.inr ⟨.extend k, Or.inr (Or.inr rfl), rfl⟩
    · split
      · exact Or.inr ⟨.toggle k, Or.inl rfl, rfl⟩
      · exact Or.inr ⟨.replace k, Or.inr (Or.inl rfl), rfl⟩

/-- **Requests.** A request to select a row comes to nothing or to one gesture on it. -/
theorem selectWith_cases (l : ListControl K T) (k : K) (pointer : PointerType) (mods : Modifiers) :
    (l.selectWith k pointer mods).1 = l.model.still ∨
      ∃ g, g.IsOn k ∧ (l.selectWith k pointer mods).1 = l.model.gesture g := by
  unfold selectWith
  split
  · exact Or.inr ⟨.toggle k, Or.inl rfl, rfl⟩
  · split
    · exact Or.inl rfl
    · split
      · split
        · exact l.selectRow_cases k pointer mods
        · exact l.selectRow_cases k pointer mods
        · exact Or.inl rfl
        · exact Or.inl rfl
      · exact l.selectRow_cases k pointer mods

/-- A request to select a row that can be selected changes what is stored, or nothing at all. -/
theorem control_select {pointer : PointerType} {mods : Modifiers} (hk : l.model.canSelect k)
    (h : (l.select k pointer mods).control.model.selection = l.model.selection) :
    (l.select k pointer mods).control = l := by
  have hmodel : (l.select k pointer mods).control =
      { l with model := (l.selectWith k pointer mods).1.model } := rfl
  rw [hmodel] at h ⊢
  rcases l.selectWith_cases k pointer mods with hstill | ⟨g, hg, hgesture⟩
  · rw [hstill]
    rfl
  · rw [hgesture] at h ⊢
    rw [SelectionModel.gesture_quiet hg hk h]

/-- The row is there and not disabled. -/
def Reaches (l : ListControl K T) (k : K) : Prop :=
  l.model.collection.contains k = true ∧ l.model.isDisabled k = false

theorem reaches_iff :
    l.Reaches k ↔ (l.model.isDisabled k || !l.model.collection.contains k) = false := by
  simp [Reaches, and_comm]

/-- **Clicks.** A click is answered without further ado, or it runs the action that its row has, or
had when a press with the mouse began, or else it selects its row, with the mouse only where
selecting waits for that. -/
theorem clicked_cases (l : ListControl K T) (click : Click K) (context : PressContext) :
    (l.clicked click context = l.answer .ignored ∨ l.clicked click context = l.answer .done) ∨
      (click.afterLongPress = false ∧ l.Reaches click.key ∧
        (l.hasAction click.key = true ∨
          click.pointer = .mouse ∧ context.hadPrimaryAction = true)) ∧
        l.clicked click context = l.act click.key ∨
      (l.allowsSelection click.key = true ∧
        (click.pointer = .mouse → l.config.selectOnPressUp = true)) ∧
        l.clicked click context = l.select click.key click.pointer context.modifiers := by
  unfold clicked
  simp only
  split
  · exact Or.inl (Or.inr rfl)
  · next hlong =>
    rw [Bool.not_eq_true] at hlong
    split
    · exact Or.inl (Or.inl rfl)
    · next hbarred =>
      have hreaches : l.Reaches click.key := reaches_iff.2 (Bool.eq_false_iff.2 hbarred)
      split
      -- made with the mouse
      · next hmouse =>
        split
        · next hprimary =>
          exact Or.inr (Or.inl ⟨⟨hlong, hreaches, Or.inr ⟨hmouse, hprimary⟩⟩, rfl⟩)
        · split
          · next hsecond =>
            have haction : l.hasAction click.key := Bool.or_eq_true_iff.2 (Or.inr hsecond.2)
            exact Or.inr (Or.inl ⟨⟨hlong, hreaches, Or.inl haction⟩, rfl⟩)
          · split
            · next hselects =>
              obtain ⟨hwaits, hallows⟩ := Bool.and_eq_true_iff.1 hselects
              exact Or.inr (Or.inr ⟨⟨hallows, fun _ => hwaits⟩, rfl⟩)
            · exact Or.inl (Or.inr rfl)
      -- made with anything else
      · next hmouse =>
        split
        · next hruns =>
          have haction : l.hasAction click.key := by
            rcases Bool.or_eq_true_iff.1 hruns with h | h
            · exact Bool.or_eq_true_iff.2 (Or.inl h)
            · exact Bool.or_eq_true_iff.2 (Or.inr (Bool.and_eq_true_iff.1 h).1)
          exact Or.inr (Or.inl ⟨⟨hlong, hreaches, Or.inl haction⟩, rfl⟩)
        · split
          · next hallows => exact Or.inr (Or.inr ⟨⟨hallows, fun h => absurd h hmouse⟩, rfl⟩)
          · exact Or.inl (Or.inr rfl)

/-- Whether a press on a row ends in its action, unless it is made with the mouse. -/
def runsAction (l : ListControl K T) (k : K) : Bool :=
  l.hasPrimaryAction k || (l.hasSecondaryAction k && l.model.behavior == .replace)

theorem clicked_of_ne_mouse {click : Click K} {context : PressContext}
    (hlong : click.afterLongPress = false) (hmouse : click.pointer ≠ .mouse) :
    l.clicked click context =
      if l.model.isDisabled click.key || !l.model.collection.contains click.key then
        l.answer .ignored
      else if l.runsAction click.key then l.act click.key
      else if l.allowsSelection click.key then
        l.select click.key click.pointer context.modifiers
      else l.answer .done := by
  simp [clicked, runsAction, hlong, hmouse]

/-- A click changes what is stored, or nothing at all. -/
theorem control_clicked {click : Click K} {context : PressContext}
    (h : (l.clicked click context).control.model.selection = l.model.selection) :
    (l.clicked click context).control = l := by
  rcases l.clicked_cases click context with
    (hignored | hdone) | ⟨-, hact⟩ | ⟨⟨hallows, -⟩, hselect⟩
  · rw [hignored]
    rfl
  · rw [hdone]
    rfl
  · rw [hact]
    rfl
  · rw [hselect] at h ⊢
    rw [allowsSelection, Bool.and_eq_true] at hallows
    exact control_select hallows.2 h

end ListControl

end Listbox
