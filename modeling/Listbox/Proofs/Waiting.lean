import Listbox.Proofs.Clicking

set_option autoImplicit false

/-! # Selecting when the press ends

A list control may select on the way down or wait for the press to end. Of a click that is over at
once this can be seen from nothing: with the other choice in its place the list control comes to the
same, and keeps that choice. The second click of a double click with the mouse is apart again, as
the list that does not wait has selected the row by the time it looks for an action. -/

universe u v

namespace Listbox

variable {K : Type u} {T : Type v} {α : Type u} [DecidableEq K] [Hashable K]

/-- The list control with another choice about waiting in place of its own. -/
def ListControl.withWaiting (l : ListControl K T) (waits : Bool) : ListControl K T :=
  { l with config := { l.config with selectOnPressUp := waits } }

/-- The reaction of a list control with another choice about waiting. -/
def Reaction.withWaiting (r : Reaction K T α) (waits : Bool) : Reaction K T α :=
  { r with control := r.control.withWaiting waits }

theorem Reaction.withWaiting_ite {p : Prop} [Decidable p] (r r' : Reaction K T α) (waits : Bool) :
    (if p then r else r').withWaiting waits =
      if p then r.withWaiting waits else r'.withWaiting waits := by
  split
  · rfl
  · rfl

namespace ListControl

variable {l l' : ListControl K T} {k : K} {pointer : PointerType} {mods : Modifiers} {now : Nat}

theorem tapped_withWaiting (waits : Bool) :
    (l.withWaiting waits).tapped k pointer now = (l.tapped k pointer now).withWaiting waits := rfl

theorem act_withWaiting (waits : Bool) :
    (l.withWaiting waits).act k = (l.act k).withWaiting waits := rfl

theorem select_withWaiting (waits : Bool) :
    (l.withWaiting waits).select k pointer mods =
      (l.select k pointer mods).withWaiting waits := rfl

/-- A click does the same with either choice. -/
theorem click_withWaiting (waits : Bool) (hdouble : ¬ l.IsDouble k pointer now) :
    (l.withWaiting waits).click k pointer mods now =
      (l.click k pointer mods now).withWaiting waits := by
  by_cases hreaches : l.Reaches k
  · have hother : (l.withWaiting waits).Reaches k := hreaches
    rw [click_of_reaches hreaches hdouble, click_of_reaches hother hdouble, tapped_withWaiting,
      act_withWaiting, select_withWaiting, Reaction.withWaiting_ite, Reaction.withWaiting_ite]
    rfl
  · have hother : ¬ (l.withWaiting waits).Reaches k := hreaches
    rw [click_of_not_reaches hreaches, click_of_not_reaches hother]
    rfl

/-- The list controls are in the same state and make the same choices, except about waiting. -/
structure SameButWaiting (l l' : ListControl K T) : Prop where
  model : l'.model = l.model
  typeahead : l'.typeahead = l.typeahead
  press : l'.press = l.press
  pressContext : l'.pressContext = l.pressContext
  config : { l'.config with selectOnPressUp := l.config.selectOnPressUp } = l.config

theorem sameButWaiting_withWaiting (l : ListControl K T) (waits : Bool) :
    l.SameButWaiting (l.withWaiting waits) :=
  ⟨rfl, rfl, rfl, rfl, rfl⟩

theorem SameButWaiting.eq_withWaiting (h : l.SameButWaiting l') :
    l' = l.withWaiting l'.config.selectOnPressUp := by
  obtain ⟨model, config, typeahead, press, pressContext⟩ := l'
  obtain ⟨rfl, rfl, rfl, rfl, hconfig⟩ := h
  rw [withWaiting, ← hconfig]

/-- **Waiting.** Whether a list control selects when a press begins or waits for its end makes no
difference to a click, unless that is the second one of a double click with the mouse: it is
answered with the same, the same is announced, and the list controls end in the same state. -/
theorem click_waits (h : l.SameButWaiting l') (hdouble : ¬ l.IsDouble k pointer now) :
    let r := l.click k pointer mods now
    let r' := l'.click k pointer mods now
    r'.result = r.result ∧ r'.reports = r.reports ∧ r.control.SameButWaiting r'.control := by
  intro r r'
  have hr : r' = r.withWaiting l'.config.selectOnPressUp := by
    have hclick : (l.withWaiting l'.config.selectOnPressUp).click k pointer mods now =
        r.withWaiting l'.config.selectOnPressUp :=
      click_withWaiting _ hdouble
    rw [← h.eq_withWaiting] at hclick
    exact hclick
  rw [hr]
  exact ⟨rfl, rfl, sameButWaiting_withWaiting r.control _⟩

/-- A link that is selected as it is followed: one list selects it on the way down, one waits. -/
theorem click_waits_linkRow :
    ∃ c, Collection.ofForest linkRow = .ok c ∧
      let m := SelectionModel.new ⟨0, c⟩ { mode := .multiple, linkBehavior := .selection }
      let l := ListControl.new m {}
      let l' := ListControl.new m { selectOnPressUp := true }
      l.SelectsAtOnce 1 .mouse ∧ ¬ l'.SelectsAtOnce 1 .mouse ∧
        l.SameButWaiting l' ∧ ¬ l.IsDouble 1 .mouse 0 ∧
        (l'.click 1 .mouse {} 0).result = (l.click 1 .mouse {} 0).result ∧
        (l.click 1 .mouse {} 0).control.SameButWaiting (l'.click 1 .mouse {} 0).control := by
  obtain ⟨c, hc⟩ := Collection.exists_ofForest_ok_iff.2 (show linkRow.keys.Nodup by decide)
  refine ⟨c, hc, ?_⟩
  intro m l l'
  have hcan : m.canSelect 1 := by
    rw [SelectionModel.canSelect_new_iff hc]
    decide
  have hallows : l.allowsSelection 1 = true := allowsSelection_of_canSelect hcan
  have hprimary : l.hasPrimaryAction 1 = false := by
    rw [Bool.eq_false_iff]
    intro hprimary
    rcases (allowsActions_iff.1 (allowsActions_of_hasPrimaryAction hprimary)).2 with h | h
    · cases h
    · rcases (followsLink_iff.1 h).2 with h | h
      · cases h
      · cases h
  have hselects : l.SelectsAtOnce 1 .mouse := ⟨rfl, hprimary, rfl, hallows⟩
  have hwaits : ¬ l'.SelectsAtOnce 1 .mouse := fun h => Bool.noConfusion h.2.2.1
  have hsame : l.SameButWaiting l' := ⟨rfl, rfl, rfl, rfl, rfl⟩
  have hdouble : ¬ l.IsDouble 1 .mouse 0 := nofun
  obtain ⟨hresult, -, hcontrol⟩ := click_waits hsame hdouble
  exact ⟨hselects, hwaits, hsame, hdouble, hresult, hcontrol⟩

end ListControl

end Listbox
