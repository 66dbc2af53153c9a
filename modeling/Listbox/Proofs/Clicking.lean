import Listbox.Proofs.Activation
import Listbox.Proofs.Straying

set_option autoImplicit false

/-! # Clicks at once

A click is a press that ends at once where it began. What it does may be done when the press begins
or when it ends: a mouse selects at the beginning, unless the list waits for the end, and whether it
runs an action is settled at the beginning too; everything else looks at the row at the end. Seen
from outside there is one step all the same (`click_of_reaches`): the row gets the focus, and then
either its action is run or the row is selected or neither. The second click of a double click with
the mouse is apart, as it runs an action after the row has been selected. -/

universe u v

namespace Listbox

/-- A press that ends at once where it began is a click. -/
theorem PressTracker.finish_start {K : Type u} [DecidableEq K] (t : PressTracker K) (k : K)
    (pointer : PointerType) (p : Point) (now : Nat) :
    ((t.start k pointer p now).finish (some k) p now).1 =
      some { key := k, pointer, count := t.clickCount k now, afterLongPress := false } := by
  simp only [finish, start, strays_self]
  rfl

variable {K : Type u} {T : Type v} [DecidableEq K] [Hashable K]

namespace ListControl

variable {l l' : ListControl K T} {k : K} {pointer : PointerType} {mods : Modifiers} {now : Nat}

/-! ## The rows of a list with another focus -/

theorem Refocused.hasPrimaryAction (h : l.Refocused l') :
    l'.hasPrimaryAction k = l.hasPrimaryAction k := by
  obtain ⟨focus, hmodel⟩ := h.model
  unfold ListControl.hasPrimaryAction
  rw [h.allowsActions, h.allowsSelection, h.config, hmodel]
  rfl

theorem Refocused.hasSecondaryAction (h : l.Refocused l') :
    l'.hasSecondaryAction k = l.hasSecondaryAction k := by
  obtain ⟨focus, hmodel⟩ := h.model
  unfold ListControl.hasSecondaryAction
  rw [h.allowsActions, h.allowsSelection, h.config, hmodel]

theorem Refocused.runsAction (h : l.Refocused l') : l'.runsAction k = l.runsAction k := by
  obtain ⟨focus, hmodel⟩ := h.model
  unfold ListControl.runsAction
  rw [h.hasPrimaryAction, h.hasSecondaryAction, hmodel]

/-! ## The two halves of a click -/

/-- A click on the row would be the second one of a double click with the mouse. -/
def IsDouble (l : ListControl K T) (k : K) (pointer : PointerType) (now : Nat) : Prop :=
  pointer = .mouse ∧ l.press.clickCount k now = 2

/-- Whether a click on a row runs its action. -/
def clickRuns (l : ListControl K T) (k : K) (pointer : PointerType) : Bool :=
  if pointer = .mouse then l.hasPrimaryAction k else l.runsAction k

/-- The list control when a press on `k` has come and gone. -/
def tapped (l : ListControl K T) (k : K) (pointer : PointerType) (now : Nat) : ListControl K T :=
  (l.beginPress k pointer {} .zero now).released (some k) .zero now

/-- The click that a press on `k` comes to if it ends at once. -/
def clickAt (l : ListControl K T) (k : K) (pointer : PointerType) (now : Nat) : Click K :=
  { key := k, pointer, count := l.press.clickCount k now, afterLongPress := false }

theorem refocused_tapped (l : ListControl K T) (k : K) (pointer : PointerType) (now : Nat) :
    l.Refocused (l.tapped k pointer now) := by
  obtain ⟨hconfig, hmodel⟩ := l.refocused_beginPress k pointer {} .zero now
  exact ⟨hconfig, hmodel⟩

/-- What the end of a click comes to, except for a double click. -/
theorem clicked_clickAt {ended : ListControl K T} {context : PressContext}
    (hreaches : ended.Reaches k) (hdouble : ¬ l.IsDouble k pointer now) :
    ended.clicked (l.clickAt k pointer now) context =
      if (if pointer = .mouse then context.hadPrimaryAction else ended.runsAction k) then
        ended.act k
      else if ended.allowsSelection k ∧ (pointer = .mouse → ended.config.selectOnPressUp) then
        ended.select k pointer context.modifiers
      else ended.answer .done := by
  have hopen := reaches_iff.1 hreaches
  by_cases hmouse : pointer = .mouse
  · have hcount : l.press.clickCount k now ≠ 2 := fun hcount => hdouble ⟨hmouse, hcount⟩
    simp [clicked, clickAt, hopen, hmouse, hcount, and_comm]
  · rw [clicked_of_ne_mouse rfl hmouse, clickAt, if_neg (Bool.eq_false_iff.1 hopen)]
    simp [hmouse]

/-- A click that begins is answered by its two halves together. -/
theorem click_of_pressStart {down : Reaction K T (Response K)} {context : PressContext}
    (hdown : l.pressStart k pointer mods .zero now = down) (hhandled : down.result.handled = true)
    (hpress : down.control.press = l.press.start k pointer .zero now)
    (hcontext : down.control.pressContext = some context) :
    l.click k pointer mods now =
      let up := (down.control.released (some k) .zero now).clicked (l.clickAt k pointer now) context
      { control := up.control
        reports := down.reports ++ up.reports
        result := .activate (down.result.activation.or up.result.activation) } := by
  have hclick : (down.control.press.finish (some k) .zero now).1 =
      some (l.clickAt k pointer now) := by
    rw [hpress]
    exact l.press.finish_start k pointer .zero now
  simp only [click, hdown, hhandled, pressUp_of_click hclick hcontext]
  rfl

/-! ## A click in one step -/

theorem click_of_not_reaches (h : ¬ l.Reaches k) :
    l.click k pointer mods now = l.answer .ignored := by
  rw [click, pressStart_of_not_reaches h]
  rfl

/-- A mouse that selects when the press begins does nothing more when it ends. -/
theorem click_of_selectsAtOnce (h : l.SelectsAtOnce k pointer)
    (hdouble : ¬ l.IsDouble k pointer now) :
    l.click k pointer mods now = (l.tapped k pointer now).select k pointer mods := by
  have hstart : l.pressStart k pointer mods .zero now =
      (l.beginPress k pointer mods .zero now).select k pointer mods :=
    pressStart_of_selectsAtOnce h
  obtain ⟨rfl, hprimary, hwaits, hallows⟩ := h
  have hbegun := l.refocused_beginPress k .mouse mods .zero now
  generalize hdown : (l.beginPress k .mouse mods .zero now).select k .mouse mods = down at hstart
  have hended : (down.control.released (some k) .zero now).Reaches k := by
    have hselected := undergoes_selectWith (l.beginPress k .mouse mods .zero now) k .mouse mods
    rw [← hdown]
    refine (reaches_congr hselected.sameRows).2 ((reaches_congr hbegun.sameRows).2 ?_)
    exact reaches_of_allowsSelection hallows
  -- the row had no primary action to remember, and the list does not wait
  have hneither : (down.control.released (some k) .zero now).clicked (l.clickAt k .mouse now)
      { modifiers := mods, hadPrimaryAction := l.hasPrimaryAction k } =
      (down.control.released (some k) .zero now).answer .done := by
    have hends : (down.control.released (some k) .zero now).config.selectOnPressUp = false := by
      rw [← hdown]
      exact hwaits
    rw [clicked_clickAt hended hdouble, if_pos rfl, hprimary, hends]
    simp
  subst hdown
  rw [click_of_pressStart hstart rfl rfl rfl, hneither]
  simp only [answer, List.append_nil, Response.done, Option.or_none]
  rfl

/-- Otherwise all that a click does is done at its end. -/
theorem click_of_begins (hreaches : l.Reaches k) (h : ¬ l.SelectsAtOnce k pointer)
    (hdouble : ¬ l.IsDouble k pointer now) :
    l.click k pointer mods now =
      if l.clickRuns k pointer then (l.tapped k pointer now).act k
      else if l.allowsSelection k then (l.tapped k pointer now).select k pointer mods
      else (l.tapped k pointer now).answer .done := by
  have htapped := l.refocused_tapped k pointer now
  have hstart : l.pressStart k pointer mods .zero now =
      (l.beginPress k pointer mods .zero now).answer .done :=
    pressStart_of_begins hreaches h
  have hended : ((l.beginPress k pointer mods .zero now).answer (Response.done : Response K)
      ).control.released (some k) .zero now = l.tapped k pointer now := rfl
  -- a mouse that finds a row to select at the end has waited for it
  have hwaits : ¬ l.clickRuns k pointer = true →
      (l.allowsSelection k ∧ (pointer = .mouse → l.config.selectOnPressUp) ↔
        l.allowsSelection k = true) := by
    intro hruns
    refine and_iff_left_of_imp fun hallows hmouse => ?_
    rw [clickRuns, if_pos hmouse, Bool.not_eq_true] at hruns
    exact Bool.of_not_eq_false fun hwaits => h ⟨hmouse, hruns, hwaits, hallows⟩
  rw [click_of_pressStart hstart rfl rfl rfl, hended,
    clicked_clickAt ((reaches_congr htapped.sameRows).2 hreaches) hdouble, htapped.runsAction,
    htapped.allowsSelection, htapped.config]
  have hruns : (if pointer = .mouse then l.hasPrimaryAction k else l.runsAction k) =
    l.clickRuns k pointer := rfl
  simp only [hruns]
  split
  · rfl
  · next hselects =>
    simp only [hwaits hselects]
    split
    · rfl
    · rfl

/-- **A click in one step.** Unless it is the second one of a double click with the mouse, a click
runs the action of its row, or selects the row, or does neither. -/
theorem click_of_reaches (hreaches : l.Reaches k) (hdouble : ¬ l.IsDouble k pointer now) :
    l.click k pointer mods now =
      if l.clickRuns k pointer then (l.tapped k pointer now).act k
      else if l.allowsSelection k then (l.tapped k pointer now).select k pointer mods
      else (l.tapped k pointer now).answer .done := by
  by_cases h : l.SelectsAtOnce k pointer
  · have hruns : l.clickRuns k pointer = false := by
      obtain ⟨rfl, hprimary, -, -⟩ := h
      exact hprimary
    rw [click_of_selectsAtOnce h hdouble, hruns, h.2.2.2]
    rfl
  · exact click_of_begins hreaches h hdouble

/-! ## Acting and selecting -/

/-- A row that is selected by a plain press has no primary action. -/
theorem not_hasPrimaryAction_and_hasSecondaryAction :
    ¬ (l.hasPrimaryAction k = true ∧ l.hasSecondaryAction k = true) := by
  rintro ⟨hprimary, hsecondary⟩
  simp only [hasPrimaryAction, hasSecondaryAction, Bool.and_eq_true, Bool.or_eq_true,
    Bool.not_eq_true', beq_iff_eq] at hprimary hsecondary
  obtain ⟨-, hbarred | ⟨⟨hbehavior, hpolicy⟩, -⟩⟩ := hprimary
  · rw [hbarred] at hsecondary
    cases hsecondary.1.2
  · rw [hbehavior, hpolicy] at hsecondary
    rcases hsecondary.2 with h | h
    · cases h
    · cases h

/-- The activation may come with a selection. -/
def AlongSelection (l : ListControl K T) : Activation K → Prop
  | .action _ => False
  | .followLink _ => l.model.config.linkBehavior = .selection

/-- Nothing is selected or announced, and the list behaves as before. -/
structure Untouched (l : ListControl K T) (r : Reaction K T (Response K)) : Prop where
  selection : r.control.model.selection = l.model.selection
  revision : r.control.model.revision = l.model.revision
  behavior : r.control.model.behavior = l.model.behavior
  reports : r.reports = []

theorem Refocused.untouched (h : l.Refocused l') (result : Response K) :
    l.Untouched (l'.answer result) := by
  obtain ⟨focus, hmodel⟩ := h.model
  constructor
  all_goals
    simp only [answer, hmodel]

/-- What comes with an activation of its own leaves the selection alone. -/
theorem untouched_click {a : Activation K} (hdouble : ¬ l.IsDouble k pointer now)
    (ha : (l.click k pointer mods now).result.activation = some a) (halong : ¬ l.AlongSelection a) :
    l.Untouched (l.click k pointer mods now) := by
  by_cases hreaches : l.Reaches k
  · have htapped := l.refocused_tapped k pointer now
    rw [click_of_reaches hreaches hdouble] at ha ⊢
    split at ha
    · next hruns =>
      rw [if_pos hruns]
      exact htapped.untouched _
    · split at ha
      · obtain ⟨rfl, -, -, hbehavior⟩ := follow_selectWith ha
        rw [htapped.sameRows.config] at hbehavior
        exact absurd hbehavior halong
      · cases ha
  · rw [click_of_not_reaches hreaches] at ha
    cases ha

/-- **Acting or selecting.** Except for the second click of a double click with the mouse, a click
that asks for an activation leaves the selection alone, unless it asks for a link to be followed
where links are followed as they are selected; so a click that selects or announces something asks
for nothing else. And no row has an action of both kinds. -/
theorem click_acts_or_selects (l : ListControl K T) :
    (∀ k pointer mods now, ¬ l.IsDouble k pointer now →
      let r := l.click k pointer mods now
      (∀ a, r.result.activation = some a → ¬ l.AlongSelection a → l.Untouched r) ∧
      (r.control.model.selection ≠ l.model.selection ∨ r.reports ≠ [] →
        r.result.activation = none ∨
        ∃ x, r.result.activation = some (.followLink x) ∧
          l.model.config.linkBehavior = .selection)) ∧
    ∀ k, ¬ (l.hasPrimaryAction k = true ∧ l.hasSecondaryAction k = true) := by
  refine ⟨?_, fun k => not_hasPrimaryAction_and_hasSecondaryAction⟩
  intro k pointer mods now hdouble r
  refine ⟨fun a ha halong => untouched_click hdouble ha halong, fun htouched => ?_⟩
  cases ha : r.result.activation with
  | none => exact Or.inl rfl
  | some a =>
    right
    have halong : l.AlongSelection a := by
      by_contra halong
      have huntouched : l.Untouched r := untouched_click hdouble ha halong
      exact htouched.elim (· huntouched.selection) (· huntouched.reports)
    cases a with
    | action x => cases halong
    | followLink x => exact ⟨x, rfl, halong⟩

/-- A click on a link follows it and selects nothing. -/
theorem click_acts_or_selects_linkRow :
    ∃ c, Collection.ofForest linkRow = .ok c ∧
      let l := ListControl.new (SelectionModel.new ⟨0, c⟩ { mode := .multiple }) {}
      let r := l.click 1 .mouse {} 0
      ¬ l.IsDouble 1 .mouse 0 ∧ r.result.activation = some (.followLink 1) ∧
        ¬ l.AlongSelection (.followLink 1) ∧ l.Untouched r := by
  obtain ⟨c, hc⟩ := Collection.exists_ofForest_ok_iff.2 (show linkRow.keys.Nodup by decide)
  refine ⟨c, hc, ?_⟩
  intro l r
  have hdouble : ¬ l.IsDouble 1 .mouse 0 := nofun
  have halong : ¬ l.AlongSelection (.followLink 1) := nofun
  have hprimary : l.hasPrimaryAction 1 = true := hasPrimaryAction_linkRow hc
  have hactions := allowsActions_iff.1 (allowsActions_of_hasPrimaryAction hprimary)
  have hfollows : (l.tapped 1 .mouse 0).followsLink 1 = true := by
    have hrows := (l.refocused_tapped 1 .mouse 0).sameRows
    rw [followsLink_congr hrows.edition hrows.config]
    exact hactions.2.resolve_left Bool.false_ne_true
  have hlink : r.result.activation = some (.followLink 1) := by
    have hruns : l.clickRuns 1 .mouse = true := hprimary
    have hclick : r = (l.tapped 1 .mouse 0).act 1 := by
      rw [show r = l.click 1 .mouse {} 0 from rfl, click_of_reaches hactions.1 hdouble, hruns]
      rfl
    rw [hclick, act, activation, if_pos hfollows]
    rfl
  obtain ⟨hclicks, -⟩ := click_acts_or_selects l
  exact ⟨hdouble, hlink, halong, (hclicks 1 .mouse {} 0 hdouble).1 _ hlink halong⟩

end ListControl

end Listbox
