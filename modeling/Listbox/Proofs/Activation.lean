import Listbox.Proofs.Polling
import Listbox.Proofs.Response

set_option autoImplicit false

/-! # Which activations are asked for

An activation that a list control asks for ought to be warranted when it is asked for, whatever
happened to the rows since the input began. Every input but one looks at the row again before it asks
for anything. The exception is the end of a press with the mouse, which relies on what was remembered
of its start: where a row has lost its action meanwhile, its action is run all the same.

`activations_warranted_iff` says that nothing else goes wrong: the activations of a run are warranted
exactly if it comes upon no press that is `Outdated`. That takes a list without actions of its own
and an edition in which the pressed row is no link any more, so a run in one edition is safe. -/

universe u v

namespace Listbox

/-- The activation that an event is answered with. -/
def Answer.activation? {K : Type u} : Answer K → Option (Activation K)
  | .response r => r.activation
  | .none | .flag _ => Option.none

theorem PressTracker.pressedKey?_poll {K : Type u} (t : PressTracker K) (now : Nat) :
    (t.poll now).2.pressedKey? = t.pressedKey? := by
  rcases t.poll_cases now with h | ⟨k, h⟩
  · rw [h]
  · rw [h]
    exact t.pressedKey?_marked

variable {K : Type u} {T : Type v} [DecidableEq K] [Hashable K]

/-- The event brings another edition of the collection. -/
def Event.BringsEdition : Event K T → Prop
  | .setEdition _ | .operation (.setEdition _) => True
  | _ => False

theorem SelectionModel.isLink_iff {m : SelectionModel K T} {k : K} :
    m.isLink k = true ↔ ∃ n ∈ m.collection.toList, n.key = k ∧ n.isLink = true := by
  simp only [isLink, Option.any_eq_true, Collection.get?_eq_some_iff, and_assoc]

namespace ListControl

variable {l l' : ListControl K T} {e : Event K T} {k : K} {a : Activation K}

/-- The activation that an event is answered with, if there is one, is warranted by then. -/
def AsksRightly (l : ListControl K T) (e : Event K T) : Prop :=
  ∀ a, (l.handle e).result.activation? = some a → (l.handle e).control.Warrants a

/-! ## Event by event -/

theorem Responds.warrants {late : Prop} {r : Reaction K T (Response K)} (h : l.Responds late r)
    (ha : r.result.activation = some a) : r.control.Warrants a ∨ late :=
  (h.warranted a ha).imp_left (warrants_congr h.config h.effect.sameRows).2

/-- Apart from outdated presses, every event asks rightly. -/
theorem asksRightly_of_not_outdated (h : ¬ l.Outdated e) : l.AsksRightly e := by
  intro a ha
  cases e with
  | pressStart k pointer mods origin now =>
    exact ((l.responds_pressStart k pointer mods origin now).warrants ha).resolve_right id
  | pressUp target point now =>
    exact ((l.responds_pressUp target point now).warrants ha).resolve_right h
  | click k pointer mods now =>
    exact ((l.responds_click k pointer mods now).warrants ha).resolve_right id
  | keyDown stroke mods layout now =>
    exact ((l.responds_keyDown stroke mods layout now).warrants ha).resolve_right id
  | poll now =>
    rcases l.poll_cases now with hpoll | ⟨k, ⟨-, hallows⟩, hpoll⟩
    · rw [handle, hpoll] at ha
      cases ha
    · have hselects := allowsSelection_of_allowsLongPress hallows
      rw [handle, hpoll] at ha
      have hwarrants : l.Warrants a := warrants_selectWith (Or.inl hselects) ha
      exact (warrants_congr (l.config_poll now) (l.sameRows_poll now)).2 hwarrants
  | pressMove | pressCancel | focusIn | focusOut | setEdition | operation => cases ha

/-- The end of a press with the mouse goes by what was remembered of its start. -/
theorem pressUp_of_hadPrimaryAction {target : Option K} {point : Point} {now : Nat}
    {click : Click K} {context : PressContext}
    (hclick : (l.press.finish target point now).1 = some click)
    (hcontext : l.pressContext = some context) (hmouse : click.pointer = .mouse)
    (hlong : click.afterLongPress = false) (hprimary : context.hadPrimaryAction = true)
    (hreaches : l.Reaches click.key) :
    l.pressUp target point now = (l.released target point now).act click.key := by
  rw [pressUp_of_click hclick hcontext]
  have hopen := reaches_iff.1 (show (l.released target point now).Reaches click.key from hreaches)
  simp [clicked, hlong, hopen, hmouse, hprimary]

/-- **Step.** An event asks rightly unless it is the end of an outdated press. -/
theorem asksRightly_iff : l.AsksRightly e ↔ ¬ l.Outdated e := by
  refine ⟨fun hasks houtdated => ?_, asksRightly_of_not_outdated⟩
  cases e with
  | pressUp target point now =>
    obtain ⟨click, context, hclick, hcontext, hmouse, hlong, hprimary, hreaches, hactions⟩ :=
      houtdated
    have hup := pressUp_of_hadPrimaryAction hclick hcontext hmouse hlong hprimary hreaches
    have hwarrants : (l.released target point now).Warrants
        ((l.released target point now).activation click.key) := by
      have hasked := hasks ((l.released target point now).activation click.key)
      rw [handle, hup] at hasked
      exact hasked rfl
    rw [warrants_activation_iff, (l.unveiled_released target point now).refocused.allowsActions,
      hactions] at hwarrants
    cases hwarrants
  | _ => exact houtdated

/-! ## What is remembered of a press

As long as the edition stays, the row of a press that had an action when the press began has one
still. -/

theorem followsLink_congr (hedition : l'.model.edition = l.model.edition)
    (hconfig : l'.model.config = l.model.config) : l'.followsLink k = l.followsLink k := by
  unfold followsLink SelectionModel.isLink SelectionModel.collection
  rw [hedition, hconfig]

theorem remembers_of_none (h : l.pressContext = none) : l.Remembers := by
  intro context k hcontext
  rw [h] at hcontext
  cases hcontext

/-- What does not touch the press, the links or the choices of the list changes nothing of it. -/
theorem Remembers.of_kept (h : l.Remembers) (hcontext : l'.pressContext = l.pressContext)
    (hpress : l'.press.pressedKey? = l.press.pressedKey?) (hconfig : l'.config = l.config)
    (hedition : l'.model.edition = l.model.edition)
    (hmodel : l'.model.config = l.model.config) : l'.Remembers := by
  intro context k hcontext' hk hprimary
  rw [hcontext] at hcontext'
  rw [hpress] at hk
  rw [hconfig, followsLink_congr hedition hmodel]
  exact h context k hcontext' hk hprimary

/-- The end of a press is over with the press; what else it does is done to the model. -/
theorem exists_control_pressUp (l : ListControl K T) (target : Option K) (point : Point)
    (now : Nat) :
    ∃ model, (l.pressUp target point now).control =
      { l.released target point now with model } := by
  rcases l.pressUp_cases target point now with h | ⟨click, context, -, -, h⟩
  · rw [h]
    exact ⟨_, rfl⟩
  · rcases (l.released target point now).clicked_cases click context with
      (hclicked | hclicked) | ⟨-, hclicked⟩ | ⟨-, hclicked⟩
    all_goals
      rw [h, hclicked]
      exact ⟨_, rfl⟩

theorem pressContext_pressUp (target : Option K) (point : Point) (now : Nat) :
    (l.pressUp target point now).control.pressContext = none := by
  obtain ⟨model, h⟩ := l.exists_control_pressUp target point now
  rw [h]
  rfl

/-- A press remembers what is the case when it begins. -/
theorem Remembers.pressStart (h : l.Remembers) (k : K) (pointer : PointerType) (mods : Modifiers)
    (origin : Point) (now : Nat) :
    (l.pressStart k pointer mods origin now).control.Remembers := by
  have hbegun := l.remembers_beginPress k pointer mods origin now
  rcases l.pressStart_cases k pointer mods origin now with hstart | hstart | ⟨-, hstart⟩
  · rw [hstart]
    exact h
  · rw [hstart]
    exact hbegun
  · rw [hstart]
    have hrows := (undergoes_selectWith (l.beginPress k pointer mods origin now) k pointer
      mods).sameRows
    exact hbegun.of_kept rfl rfl rfl hrows.edition hrows.config

theorem Remembers.click (h : l.Remembers) (k : K) (pointer : PointerType) (mods : Modifiers)
    (now : Nat) : (l.click k pointer mods now).control.Remembers := by
  unfold ListControl.click
  simp only
  split
  · exact h.pressStart k pointer mods .zero now
  · exact remembers_of_none (pressContext_pressUp ..)

theorem edition_apply (m : SelectionModel K T) (op : Operation K T)
    (h : ∀ e, op ≠ .setEdition e) : (m.apply op).model.edition = m.edition := by
  cases op with
  | gesture g => exact (SelectionModel.sameSetting_gesture m g).edition
  | setDisabled ks => exact (SelectionModel.sameSetting_prune _).edition
  | setFocusedKey k child =>
    obtain ⟨focus, hfocus⟩ := m.exists_setFocusedKey_eq k child
    rw [SelectionModel.apply, hfocus]
    rfl
  | setEdition e => exact absurd rfl (h e)
  | setControlled | setBehavior | setFocused | setFocusVisible | setObserved => rfl

theorem press_poll (l : ListControl K T) (now : Nat) :
    (l.poll now).control.press = (l.press.poll now).2 ∧
      (l.poll now).control.pressContext = l.pressContext := by
  rcases l.poll_cases now with h | ⟨k, -, h⟩
  · rw [h]
    exact ⟨rfl, rfl⟩
  · rw [h]
    exact ⟨rfl, rfl⟩

/-- **Step.** In one edition, what a press remembers stays true. -/
theorem Remembers.handle (h : l.Remembers) (he : ¬ e.BringsEdition) :
    (l.handle e).control.Remembers := by
  cases e with
  | pressStart k pointer mods origin now => exact h.pressStart k pointer mods origin now
  | pressMove point =>
    rcases l.pressMove_cases point with hmove | hmove
    · exact remembers_of_none (congrArg (·.pressContext) hmove)
    · have hcontrol : (l.handle (.pressMove point)).control = l := hmove
      rw [hcontrol]
      exact h
  | pressUp target point now => exact remembers_of_none (pressContext_pressUp ..)
  | pressCancel => exact remembers_of_none rfl
  | click k pointer mods now => exact h.click k pointer mods now
  | poll now =>
    have hrows := l.sameRows_poll now
    obtain ⟨hpress, hcontext⟩ := l.press_poll now
    have hkey : (l.poll now).control.press.pressedKey? = l.press.pressedKey? := by
      rw [hpress, PressTracker.pressedKey?_poll]
    exact h.of_kept hcontext hkey (l.config_poll now) hrows.edition hrows.config
  | keyDown stroke mods layout now =>
    have hrows := (l.responds_keyDown stroke mods layout now).effect.sameRows
    exact h.of_kept (l.pressContext_keyDown stroke mods layout now)
      (congrArg _ (l.press_keyDown stroke mods layout now))
      (l.responds_keyDown stroke mods layout now).config hrows.edition hrows.config
  | focusIn entry =>
    have hrows := (l.undergoes_focusIn entry).sameRows
    exact h.of_kept rfl rfl rfl hrows.edition hrows.config
  | focusOut => exact h.of_kept rfl rfl rfl rfl rfl
  | setEdition e => exact absurd trivial he
  | operation op =>
    have hother : ∀ next, op ≠ .setEdition next := by
      rintro next rfl
      exact he trivial
    exact h.of_kept rfl rfl rfl (edition_apply l.model op hother)
      (l.model.sameTerms_apply op).config

theorem config_handle (l : ListControl K T) (e : Event K T) :
    (l.handle e).control.config = l.config := by
  cases e with
  | pressStart k pointer mods origin now =>
    exact (l.responds_pressStart k pointer mods origin now).config
  | pressMove point =>
    rcases l.pressMove_cases point with hmove | hmove
    · exact congrArg (·.config) hmove
    · exact congrArg (·.config) hmove
  | pressUp target point now => exact (l.responds_pressUp target point now).config
  | click k pointer mods now => exact (l.responds_click k pointer mods now).config
  | keyDown stroke mods layout now => exact (l.responds_keyDown stroke mods layout now).config
  | poll now => exact l.config_poll now
  | setEdition e =>
    unfold handle setEdition
    simp only
    split
    · rfl
    · rfl
  | pressCancel | focusIn | focusOut | operation => rfl

/-! ## Runs -/

/-- **Activations.** From the start, the activations of a run are warranted as they are asked for
exactly if the run comes upon no outdated press. It comes upon none if the list has actions of its
own, and none as long as the edition stays. -/
theorem activations_warranted_iff (model : SelectionModel K T) (config : InteractionConfig)
    (events : List (Event K T)) :
    let l := ListControl.new model config
    (l.Throughout AsksRightly events ↔ l.Throughout (fun l e => ¬ l.Outdated e) events) ∧
    (config.hasAction = true → l.Throughout AsksRightly events) ∧
    ((∀ e ∈ events, ¬ e.BringsEdition) → l.Throughout AsksRightly events) := by
  intro l
  refine ⟨?_, fun hactions => ?_, fun hedition => ?_⟩
  · exact throughout_congr (fun _ => True) trivial (fun _ _ _ _ => asksRightly_iff)
      fun _ _ _ _ _ => trivial
  · refine throughout_of_invariant (fun l => l.config.hasAction = true) hactions ?_
    intro l e _ hl
    refine ⟨asksRightly_of_not_outdated ?_, ?_⟩
    · exact not_outdated_of_remembers fun _ _ _ _ _ => Or.inl hl
    · rw [config_handle]
      exact hl
  · have hl : l.Remembers := remembers_of_none rfl
    refine throughout_of_invariant Remembers hl fun l e he hremembers => ⟨?_, ?_⟩
    · exact asksRightly_of_not_outdated (not_outdated_of_remembers hremembers)
    · exact hremembers.handle (hedition e he)

/-- One row, which is a link. -/
def linkRow : Forest (Entry Nat Unit) :=
  .tree { Entry.item 1 "one" () with href := some "x" } .nil .nil

/-- The same row without the link. -/
def plainRow : Forest (Entry Nat Unit) := .tree (.item 1 "one" ()) .nil .nil

/-- The link is followed as long as it is there. -/
theorem activations_warranted_linkRow :
    ∃ c, Collection.ofForest linkRow = .ok c ∧
      let l := ListControl.new (SelectionModel.new ⟨0, c⟩ { mode := .multiple }) {}
      let events : List (Event Nat Unit) :=
        [.pressStart 1 .mouse {} .zero 0, .pressUp (some 1) .zero 100]
      (∀ e ∈ events, ¬ e.BringsEdition) ∧ l.Throughout AsksRightly events := by
  obtain ⟨c, hc⟩ := Collection.exists_ofForest_ok_iff.2 (show linkRow.keys.Nodup by decide)
  refine ⟨c, hc, ?_⟩
  intro l events
  have hedition : ∀ e ∈ events, ¬ e.BringsEdition := by
    intro e he
    rcases List.mem_cons.1 he with rfl | he
    · exact id
    · rw [List.mem_singleton.1 he]
      exact id
  exact ⟨hedition, (activations_warranted_iff _ {} events).2.2 hedition⟩

/-- A press with the mouse on a row with an action only begins. -/
theorem pressStart_of_hasPrimaryAction {pointer : PointerType} {mods : Modifiers} {origin : Point}
    {now : Nat} (h : l.hasPrimaryAction k = true) :
    l.pressStart k pointer mods origin now =
      (l.beginPress k pointer mods origin now).answer .done := by
  have hreaches := (allowsActions_iff.1 (allowsActions_of_hasPrimaryAction h)).1
  refine pressStart_of_begins hreaches fun hselects => ?_
  rw [hselects.2.1] at h
  cases h

/-- In an edition that does not lack the key of a press, only the model moves on. -/
theorem control_setEdition_of_all {e : Edition K T}
    (h : l.press.pressedKey?.all e.collection.contains = true) :
    (l.setEdition e).control = { l with model := (l.model.setEdition e).model } := by
  simp only [setEdition, h]
  rfl

/-- In an edition that lacks its key a press is given up. -/
theorem control_setEdition_of_not_all {e : Edition K T}
    (h : l.press.pressedKey?.all e.collection.contains = false) :
    (l.setEdition e).control = { l.pressCancel with model := (l.model.setEdition e).model } := by
  simp only [setEdition, h]
  rfl

/-- A press goes on in an edition that has its key. -/
theorem setEdition_of_contains {e : Edition K T} (hpress : l.press.pressedKey? = some k)
    (hk : e.collection.contains k = true) :
    (l.setEdition e).control = { l with model := (l.model.setEdition e).model } := by
  refine control_setEdition_of_all ?_
  rw [hpress]
  exact hk

/-- The button is down on the first row. -/
def button : PressTracker Nat := PressTracker.start (.new {}) 1 .mouse .zero 0

theorem finish_button :
    (button.finish (some 1) .zero 100).1 =
      some { key := 1, pointer := .mouse, count := 1, afterLongPress := false } := by
  decide +kernel

section LinkRow

variable {c d : Collection Nat Unit} (hc : Collection.ofForest linkRow = .ok c)
variable (hd : Collection.ofForest plainRow = .ok d)

include hc in
theorem hasPrimaryAction_linkRow :
    (ListControl.new (.new ⟨0, c⟩ { mode := .multiple }) {}).hasPrimaryAction 1 := by
  have hcan : (SelectionModel.new ⟨0, c⟩ { mode := .multiple }).canSelect 1 := by
    rw [SelectionModel.canSelect_new_iff hc]
    decide
  have hlink : (SelectionModel.new ⟨0, c⟩ { mode := .multiple }).isLink 1 := by
    rw [SelectionModel.isLink_iff]
    change ∃ n ∈ c.toList, _
    rw [Collection.toList_ofForest hc]
    decide
  have hactions : (ListControl.new (.new ⟨0, c⟩ { mode := .multiple }) {}).allowsActions 1 := by
    rw [allowsActions_iff, followsLink_iff]
    exact ⟨⟨SelectionModel.contains_of_canSelect hcan,
      SelectionModel.not_isDisabled_of_canSelect hcan⟩, Or.inr ⟨hlink, Or.inl rfl⟩⟩
  -- a list that toggles and has nothing selected prefers the action
  rw [hasPrimaryAction, hactions]
  exact Bool.or_true _

/-- The list control with the button down, in the edition that has come meanwhile. -/
def overtaken (c d : Collection Nat Unit) (focus : Focus Nat) : ListControl Nat Unit :=
  { ListControl.new (.new ⟨0, c⟩ { mode := .multiple }) {} with
    model := { SelectionModel.new ⟨1, d⟩ { mode := .multiple } with focus }
    press := button
    pressContext := some { modifiers := {}, hadPrimaryAction := true } }

include hd in
theorem canSelect_plainRow : (SelectionModel.new ⟨1, d⟩ { mode := .multiple }).canSelect 1 := by
  rw [SelectionModel.canSelect_new_iff hd]
  decide

include hc hd in
theorem exists_run_eq_overtaken :
    ∃ focus, (ListControl.new (.new ⟨0, c⟩ { mode := .multiple }) {}).run
      [.pressStart 1 .mouse {} .zero 0, .setEdition ⟨1, d⟩] = overtaken c d focus := by
  let l := ListControl.new (SelectionModel.new ⟨0, c⟩ { mode := .multiple }) {}
  have hprimary : l.hasPrimaryAction 1 = true := hasPrimaryAction_linkRow hc
  have hcontains : d.contains 1 = true :=
    SelectionModel.contains_of_canSelect (canSelect_plainRow hd)
  obtain ⟨focus, hbegun⟩ := (l.refocused_beginPress 1 .mouse {} .zero 0).model
  have hmodel : ∃ focus', ((l.beginPress 1 .mouse {} .zero 0).model.setEdition ⟨1, d⟩).model =
      { SelectionModel.new ⟨1, d⟩ { mode := .multiple } with focus := focus' } := by
    rw [hbegun]
    exact ⟨_, rfl⟩
  obtain ⟨focus', hmodel⟩ := hmodel
  refine ⟨focus', ?_⟩
  have hstart : (l.handle (.pressStart 1 .mouse {} .zero 0)).control =
      l.beginPress 1 .mouse {} .zero 0 := by
    rw [handle, pressStart_of_hasPrimaryAction hprimary]
    rfl
  change ((l.handle (.pressStart 1 .mouse {} .zero 0)).control.setEdition ⟨1, d⟩).control = _
  rw [hstart, setEdition_of_contains rfl hcontains, hmodel, beginPress, hprimary]
  rfl

include hd in
theorem reaches_overtaken (focus : Focus Nat) : (overtaken c d focus).Reaches 1 := by
  have hcan := canSelect_plainRow hd
  exact ⟨SelectionModel.contains_of_canSelect hcan, SelectionModel.not_isDisabled_of_canSelect hcan⟩

include hd in
theorem followsLink_overtaken (focus : Focus Nat) :
    (overtaken c d focus).followsLink 1 = false := by
  rw [Bool.eq_false_iff, ne_eq, followsLink_iff, SelectionModel.isLink_iff]
  have hnone : ¬ ∃ n ∈ d.toList, n.key = 1 ∧ n.isLink = true := by
    rw [Collection.toList_ofForest hd]
    decide
  exact fun h => hnone h.1

include hd in
theorem outdated_overtaken (focus : Focus Nat) :
    (overtaken c d focus).Outdated (.pressUp (some 1) .zero 100) := by
  have hactions : ¬ (overtaken c d focus).allowsActions 1 := by
    rw [allowsActions_iff, followsLink_overtaken hd]
    rintro ⟨-, hnone | hnone⟩
    · cases hnone
    · cases hnone
  exact ⟨_, _, finish_button, rfl, rfl, rfl, rfl, reaches_overtaken hd focus,
    Bool.eq_false_iff.2 hactions⟩

include hd in
theorem result_overtaken (focus : Focus Nat) :
    ((overtaken c d focus).pressUp (some 1) .zero 100).result = .activate (some (.action 1)) := by
  rw [pressUp_of_hadPrimaryAction (l := overtaken c d focus) finish_button rfl rfl rfl rfl
    (reaches_overtaken hd focus)]
  have hfollows : (overtaken c d focus).followsLink 1 = false := followsLink_overtaken hd focus
  have haction : ((overtaken c d focus).released (some 1) .zero 100).activation 1 = .action 1 :=
    if_neg (Bool.eq_false_iff.1 hfollows)
  exact congrArg (fun a => Response.activate (some a)) haction

end LinkRow

/-- Where a link has become a plain row under the mouse, the action is run that the row does not
have. -/
theorem press_runs_lost_action :
    ∃ c d, Collection.ofForest linkRow = .ok c ∧ Collection.ofForest plainRow = .ok d ∧
      let l := ListControl.new (SelectionModel.new ⟨0, c⟩ { mode := .multiple }) {}
      let pressed := l.run [.pressStart 1 .mouse {} .zero 0, .setEdition ⟨1, d⟩]
      (pressed.handle (.pressUp (some 1) .zero 100)).result =
          .response (.activate (some (.action 1))) ∧
        ¬ l.Throughout AsksRightly
          [.pressStart 1 .mouse {} .zero 0, .setEdition ⟨1, d⟩, .pressUp (some 1) .zero 100] := by
  obtain ⟨c, hc⟩ := Collection.exists_ofForest_ok_iff.2 (show linkRow.keys.Nodup by decide)
  obtain ⟨d, hd⟩ := Collection.exists_ofForest_ok_iff.2 (show plainRow.keys.Nodup by decide)
  refine ⟨c, d, hc, hd, ?_⟩
  intro l pressed
  obtain ⟨focus, hpressed⟩ : ∃ focus, pressed = overtaken c d focus :=
    exists_run_eq_overtaken hc hd
  have houtdated : pressed.Outdated (.pressUp (some 1) .zero 100) := by
    rw [hpressed]
    exact outdated_overtaken hd focus
  refine ⟨?_, fun hasks => ?_⟩
  · rw [hpressed]
    exact congrArg Answer.response (result_overtaken hd focus)
  · exact asksRightly_iff.1 hasks.2.2.1 houtdated

end ListControl

end Listbox
