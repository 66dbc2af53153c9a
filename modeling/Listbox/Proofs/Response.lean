import Listbox.ListControl.Event
import Listbox.Proofs.Request

set_option autoImplicit false

/-! # What an input comes to

An input that a list control answers is used up or ignored. It moves the focus at most, and after
that carries out one gesture at most (`Undergoes`); ignored, it can only have made the focus visible;
and an activation that comes with the answer is one that the list may ask for (`Warrants`).
`Responds` says all of this of one reaction, and there is one lemma for every function that answers
an input. Later modules read these and never open the functions again.

There is one exception, which `Responds` takes as a parameter. A press that is made with the mouse
remembers from its start whether the row had a primary action, and in the end relies on that. By then
the row may have lost its action: the press is `Outdated`. -/

universe u v

namespace Listbox

theorem PointerType.selectsOnPressStart_iff {pointer : PointerType} :
    pointer.selectsOnPressStart = true ↔ pointer = .mouse := by
  cases pointer <;> simp [selectsOnPressStart]

/-- A click is the end of the press that was going on. -/
theorem PressTracker.exists_active_of_finish {K : Type u} [DecidableEq K] {t : PressTracker K}
    {target : Option K} {point : Point} {now : Nat} {click : Click K}
    (h : (t.finish target point now).1 = some click) :
    ∃ press, t.active = some press ∧ click.key = press.key ∧ click.pointer = press.pointer := by
  unfold finish at h
  cases hactive : t.active with
  | none =>
    rw [hactive] at h
    cases h
  | some press =>
    rw [hactive] at h
    simp only at h
    split at h
    · cases h
      exact ⟨press, rfl, rfl, rfl⟩
    · cases h

variable {K : Type u} {T : Type v} [DecidableEq K] [Hashable K]

/-! ## What becomes of the model -/

namespace SelectionModel

variable {m m' : SelectionModel K T} {u : Update K T}

/-- What an input does to a model: it moves the focus, and then carries out one gesture at most. -/
inductive Undergoes (m : SelectionModel K T) : Update K T → Prop where
  | rest (focus : Focus K) : Undergoes m { m with focus }.still
  | gesture (focus : Focus K) (g : Gesture K) : Undergoes m ({ m with focus }.gesture g)

/-- The same rows, with the same said of each of them. -/
structure SameRows (m m' : SelectionModel K T) : Prop where
  edition : m'.edition = m.edition
  config : m'.config = m.config
  disabledKeys : m'.disabledKeys = m.disabledKeys

theorem SameRows.isDisabled_eq (h : SameRows m m') (k : K) : m'.isDisabled k = m.isDisabled k := by
  simp only [isDisabled, collection, h.edition, h.config, h.disabledKeys]

theorem Undergoes.sameRows (h : m.Undergoes u) : SameRows m u.model := by
  cases h with
  | rest focus => exact ⟨rfl, rfl, rfl⟩
  | gesture focus g =>
    have setting := sameSetting_gesture { m with focus } g
    exact ⟨setting.edition, setting.config, setting.disabledKeys⟩

/-- Where the focus was before makes no difference to where it can go. -/
theorem Undergoes.of_focus {focus : Focus K} (h : { m with focus }.Undergoes u) :
    m.Undergoes u := by
  cases h with
  | rest focus' => exact .rest focus'
  | gesture focus' g => exact .gesture focus' g

end SelectionModel

/-- What a reaction does to the model. -/
def Reaction.updated {α : Type u} (r : Reaction K T α) : Update K T := ⟨r.control.model, r.reports⟩

@[simp]
theorem Reaction.model_updated {α : Type u} (r : Reaction K T α) :
    r.updated.model = r.control.model := rfl

@[simp]
theorem Reaction.reports_updated {α : Type u} (r : Reaction K T α) : r.updated.reports = r.reports :=
  rfl

namespace ListControl

@[simp]
theorem updated_answer {α : Type u} (l : ListControl K T) (result : α) :
    (l.answer result).updated = l.model.still := rfl

@[simp]
theorem updated_update {α : Type u} (l : ListControl K T) (u : Update K T) (result : α) :
    (l.update u result).updated = u := rfl

variable {l l' : ListControl K T} {k : K} {a : Activation K} {late : Prop}

/-! ## Activations -/

/-- The list may ask for the activation: its row is in reach, and it is a link to be followed, or
the list has actions and the row is no link whose action is to follow it. -/
def Warrants (l : ListControl K T) : Activation K → Prop
  | .action k => l.Reaches k ∧ l.config.hasAction = true ∧
      ¬ (l.model.isLink k = true ∧
        (l.model.config.linkBehavior = .action ∨ l.model.config.linkBehavior = .override))
  | .followLink k => l.Reaches k ∧ l.model.isLink k = true ∧
      (l.model.config.linkBehavior = .action ∨ l.model.config.linkBehavior = .override ∨
        l.model.config.linkBehavior = .selection)

theorem reaches_congr (h : l.model.SameRows l'.model) : l'.Reaches k ↔ l.Reaches k := by
  simp only [Reaches, h.isDisabled_eq, SelectionModel.collection, h.edition]

theorem warrants_congr (hconfig : l'.config = l.config) (h : l.model.SameRows l'.model) :
    l'.Warrants a ↔ l.Warrants a := by
  cases a with
  | action k =>
    simp only [Warrants, reaches_congr h, hconfig, SelectionModel.isLink,
      SelectionModel.collection, h.edition, h.config]
  | followLink k =>
    simp only [Warrants, reaches_congr h, SelectionModel.isLink, SelectionModel.collection,
      h.edition, h.config]

theorem followsLink_iff :
    l.followsLink k = true ↔ l.model.isLink k = true ∧
      (l.model.config.linkBehavior = .action ∨ l.model.config.linkBehavior = .override) := by
  simp [followsLink]

theorem allowsActions_iff :
    l.allowsActions k = true ↔
      l.Reaches k ∧ (l.config.hasAction = true ∨ l.followsLink k = true) := by
  simp [allowsActions, Reaches, and_comm]

/-- The action of a row may be run exactly if the row has one. -/
theorem warrants_activation_iff : l.Warrants (l.activation k) ↔ l.allowsActions k = true := by
  rw [allowsActions_iff, activation]
  split
  · next hfollows =>
    obtain ⟨hlink, hbehavior⟩ := followsLink_iff.1 hfollows
    simp only [Warrants, hlink, true_and, hfollows, or_true, and_true]
    exact ⟨fun h => h.1, fun h => ⟨h, hbehavior.imp_right Or.inl⟩⟩
  · next hfollows =>
    rw [Warrants, ← followsLink_iff, or_iff_left hfollows, and_iff_left hfollows]

theorem allowsActions_of_hasPrimaryAction (h : l.hasPrimaryAction k = true) :
    l.allowsActions k = true :=
  (Bool.and_eq_true_iff.1 h).1

theorem allowsActions_of_hasSecondaryAction (h : l.hasSecondaryAction k = true) :
    l.allowsActions k = true :=
  (Bool.and_eq_true_iff.1 (Bool.and_eq_true_iff.1 h).1).1

theorem allowsActions_of_hasAction (h : l.hasAction k = true) : l.allowsActions k = true := by
  rcases Bool.or_eq_true_iff.1 h with h | h
  · exact allowsActions_of_hasPrimaryAction h
  · exact allowsActions_of_hasSecondaryAction h

theorem allowsSelection_of_allowsLongPress (h : l.allowsLongPress k = true) :
    l.allowsSelection k = true :=
  (Bool.and_eq_true_iff.1 (Bool.and_eq_true_iff.1 h).1).2

theorem allowsSelection_of_canSelect (h : l.model.canSelect k) : l.allowsSelection k = true := by
  rw [allowsSelection, SelectionModel.not_isDisabled_of_canSelect h, h]
  rfl

theorem reaches_of_allowsSelection (h : l.allowsSelection k = true) : l.Reaches k := by
  rw [allowsSelection, Bool.and_eq_true, Bool.not_eq_true'] at h
  exact ⟨SelectionModel.contains_of_canSelect h.2, h.1⟩

/-- What a request to select a row asks for: a link is followed along with its selection. A keyboard
command follows none. -/
theorem follow_selectWith {pointer : PointerType} {mods : Modifiers}
    (h : (l.selectWith k pointer mods).2 = some a) :
    a = .followLink k ∧ ¬ (pointer = .keyboard ∧ mods.isCtrlLike l.config.platform) ∧
      l.model.isLink k = true ∧ l.model.config.linkBehavior = .selection := by
  unfold selectWith at h
  split at h
  · cases h
  · next hcommand =>
    split at h
    · cases h
    · split at h
      · next hlink =>
        split at h
        · cases h
        · next hbehavior =>
          cases h
          exact ⟨rfl, hcommand, hlink, hbehavior⟩
        · cases h
        · cases h
      · cases h

theorem warrants_selectWith {pointer : PointerType} {mods : Modifiers}
    (hk : l.allowsSelection k = true ∨ pointer = .keyboard ∧ mods.isCtrlLike l.config.platform)
    (ha : (l.selectWith k pointer mods).2 = some a) : l.Warrants a := by
  obtain ⟨rfl, hcommand, hlink, hbehavior⟩ := follow_selectWith ha
  have hk := reaches_of_allowsSelection (hk.resolve_right hcommand)
  exact ⟨hk, hlink, Or.inr (Or.inr hbehavior)⟩

/-! ## Reactions -/

/-- What is to be said of the reaction to an input. An activation that is not warranted comes only
`late`. -/
structure Responds (l : ListControl K T) (late : Prop) (r : Reaction K T (Response K)) : Prop where
  config : r.control.config = l.config
  effect : l.model.Undergoes r.updated
  warranted : ∀ a, r.result.activation = some a → l.Warrants a ∨ late
  ignored : r.result.handled = false →
    r.result = .ignored ∧ ∃ visible, r.updated = (l.model.setFocusVisible visible).still

/-- The list controls differ in the focus, the press and the typed text at most. -/
structure Refocused (l l' : ListControl K T) : Prop where
  config : l'.config = l.config
  model : ∃ focus, l'.model = { l.model with focus }

theorem Refocused.sameRows (h : l.Refocused l') : l.model.SameRows l'.model := by
  obtain ⟨focus, hmodel⟩ := h.model
  rw [hmodel]
  exact ⟨rfl, rfl, rfl⟩

theorem Refocused.warrants (h : l.Refocused l') (ha : l'.Warrants a) : l.Warrants a :=
  (warrants_congr h.config h.sameRows).1 ha

theorem Refocused.allowsSelection (h : l.Refocused l') :
    l'.allowsSelection k = l.allowsSelection k := by
  obtain ⟨focus, hmodel⟩ := h.model
  unfold ListControl.allowsSelection
  rw [hmodel]
  rfl

theorem Refocused.allowsActions (h : l.Refocused l') : l'.allowsActions k = l.allowsActions k := by
  obtain ⟨focus, hmodel⟩ := h.model
  unfold ListControl.allowsActions followsLink
  rw [hmodel, h.config]
  rfl

/-- The list controls differ in whether the focus is drawn, the press and the typed text at most. -/
structure Unveiled (l l' : ListControl K T) : Prop where
  config : l'.config = l.config
  model : ∃ visible, l'.model = l.model.setFocusVisible visible

theorem Unveiled.refocused (h : l.Unveiled l') : l.Refocused l' := by
  obtain ⟨visible, hmodel⟩ := h.model
  exact ⟨h.config, { l.model.focus with visible }, hmodel⟩

theorem Unveiled.refl (l : ListControl K T) : l.Unveiled l := ⟨rfl, l.model.focus.visible, rfl⟩

namespace Responds

/-- The input is not for the list. -/
theorem ignore (h : l.Unveiled l') : l.Responds late (l'.answer .ignored) := by
  obtain ⟨visible, hmodel⟩ := h.model
  refine ⟨h.config, ?_, nofun, fun _ => ⟨rfl, visible, ?_⟩⟩
  · rw [updated_answer, hmodel]
    exact .rest _
  · rw [updated_answer, hmodel]

/-- The input is used up, and perhaps an activation is asked for. -/
theorem activate {follow : Option (Activation K)} (h : l.Refocused l')
    (hfollow : ∀ a, follow = some a → l'.Warrants a ∨ late) :
    l.Responds late (l'.answer (.activate follow)) := by
  obtain ⟨focus, hmodel⟩ := h.model
  refine ⟨h.config, ?_, fun a ha => (hfollow a ha).imp_left h.warrants, nofun⟩
  rw [updated_answer, hmodel]
  exact .rest focus

theorem done (h : l.Refocused l') : l.Responds late (l'.answer .done) :=
  activate h nofun

theorem act (h : l.Refocused l') (hk : l'.allowsActions k = true ∨ late) :
    l.Responds late (l'.act k) := by
  refine activate h fun a ha => ?_
  cases ha
  exact hk.imp_left warrants_activation_iff.2

/-- A gesture is carried out, and perhaps an activation is asked for. -/
theorem gesture {follow : Option (Activation K)} (h : l.Refocused l')
    (hfollow : ∀ a, follow = some a → l'.Warrants a) (g : Gesture K) :
    l.Responds late (l'.update (l'.model.gesture g) (.activate follow)) := by
  obtain ⟨focus, hmodel⟩ := h.model
  refine ⟨h.config, ?_, fun a ha => Or.inl (h.warrants (hfollow a ha)), nofun⟩
  rw [updated_update, hmodel]
  exact .gesture focus g

theorem carryOut (h : l.Refocused l') (g : Gesture K) :
    l.Responds late (l'.update (l'.model.gesture g) .done) := by
  have hfollow : ∀ a, (none : Option (Activation K)) = some a → l'.Warrants a := nofun
  exact gesture h hfollow g

/-- A row is selected. -/
theorem select {pointer : PointerType} {mods : Modifiers} (h : l.Refocused l')
    (hk : l'.allowsSelection k = true ∨ pointer = .keyboard ∧ mods.isCtrlLike l'.config.platform) :
    l.Responds late (l'.select k pointer mods) := by
  have hfollow : ∀ a, (l'.selectWith k pointer mods).2 = some a → l'.Warrants a :=
    fun a => warrants_selectWith hk
  rcases l'.selectWith_cases k pointer mods with hstill | ⟨g, -, hgesture⟩
  · have hselect : l'.select k pointer mods =
        l'.answer (.activate (l'.selectWith k pointer mods).2) := by
      rw [ListControl.select]
      simp only [hstill]
      rfl
    rw [hselect]
    exact activate h fun a ha => Or.inl (hfollow a ha)
  · rw [ListControl.select]
    simp only [hgesture]
    exact gesture h hfollow g

/-- Whether the focus was drawn before makes no difference. -/
theorem of_unveiled {r : Reaction K T (Response K)} (h : l.Unveiled l')
    (hr : l'.Responds late r) : l.Responds late r := by
  obtain ⟨visible, hmodel⟩ := h.model
  refine ⟨hr.config.trans h.config, ?_, fun a ha => ?_, fun hunhandled => ?_⟩
  · have heffect := hr.effect
    rw [hmodel] at heffect
    exact heffect.of_focus
  · exact (hr.warranted a ha).imp_left h.refocused.warrants
  · obtain ⟨hresult, visible', hupdated⟩ := hr.ignored hunhandled
    rw [hmodel] at hupdated
    exact ⟨hresult, visible', hupdated⟩

/-- A reaction that is used up whatever it was: where the focus was before makes no difference. -/
theorem used {late' : Prop} {r : Reaction K T (Response K)} (h : l.Refocused l')
    (hr : l'.Responds late' r) (hlate : late' → late) :
    l.Responds late { r with result := .activate r.result.activation } := by
  obtain ⟨focus, hmodel⟩ := h.model
  refine ⟨hr.config.trans h.config, ?_, fun a ha => ?_, nofun⟩
  · have heffect := hr.effect
    rw [hmodel] at heffect
    exact heffect.of_focus
  · exact (hr.warranted a ha).imp h.warrants hlate

/-- What is answered after the input is used up has no further effect. -/
theorem afterwards {ended : ListControl K T} {result : Response K} {r : Reaction K T (Response K)}
    (hr : l.Responds late r) (hmodel : ended.model = r.control.model)
    (hconfig : ended.config = r.control.config)
    (hresult : ∀ a, result.activation = some a → r.control.Warrants a) :
    l.Responds late ⟨ended, r.reports, .activate (r.result.activation.or result.activation)⟩ := by
  refine ⟨hconfig.trans hr.config, ?_, fun a ha => ?_, nofun⟩
  · have heffect := hr.effect
    rw [Reaction.updated] at heffect ⊢
    rw [hmodel]
    exact heffect
  · rcases Option.or_eq_some_iff.1 ha with ha | ⟨-, ha⟩
    · exact hr.warranted a ha
    · exact Or.inl ((warrants_congr hr.config hr.effect.sameRows).1 (hresult a ha))

end Responds

/-! ## Keys -/

section Keys

variable (l : ListControl K T)

theorem responds_escape : l.Responds False l.escape := by
  unfold escape
  split
  · exact .ignore (.refl l)
  · exact .carryOut (Unveiled.refl l).refocused .clear

theorem responds_activateFocused (withEnter : Bool) (mods : Modifiers) :
    l.Responds False (l.activateFocused withEnter mods) := by
  unfold activateFocused
  split
  · exact .ignore (.refl l)
  · split
    · exact .ignore (.refl l)
    · split
      · next haction =>
        have hk := allowsActions_of_hasAction (Bool.and_eq_true_iff.1 haction).2
        exact .act (Unveiled.refl l).refocused (Or.inl hk)
      · split
        · next hselects =>
          rw [Bool.or_eq_true] at hselects
          exact .select (Unveiled.refl l).refocused (hselects.imp_right fun h => ⟨rfl, h⟩)
        · exact .ignore (.refl l)

theorem responds_typeApart (c : Char) (mods : Modifiers) :
    l.Responds False (l.typeApart c mods) := by
  unfold typeApart
  split
  · exact l.responds_activateFocused false mods
  · exact .ignore (.refl l)

/-- The list control with the focus on another row. -/
theorem refocused_setFocusedKey (typeahead : Typeahead) (k : K) :
    l.Refocused { l with typeahead, model := l.model.setFocusedKey (some k) none } :=
  ⟨rfl, l.model.exists_setFocusedKey_eq (some k) none⟩

theorem responds_type (c : Char) (mods : Modifiers) (now : Nat) :
    l.Responds False (l.type c mods now) := by
  unfold type
  split
  · exact l.responds_typeApart c mods
  · generalize l.typeahead.input _ _ c now = result
    obtain ⟨outcome, typeahead⟩ := result
    have htyped : l.Unveiled { l with typeahead } := ⟨rfl, l.model.focus.visible, rfl⟩
    cases outcome with
    | focus k => exact .done (l.refocused_setFocusedKey typeahead k)
    | noMatch => exact .done htyped.refocused
    | ignored => exact .of_unveiled htyped (responds_typeApart _ c mods)

theorem responds_navigate (move : Move) (mods : Modifiers) (layout : Option (Layout K))
    (shiftExtends : Bool) : l.Responds False (l.navigate move mods layout shiftExtends) := by
  unfold navigate
  split
  · exact .ignore (.refl l)
  · next k _ =>
    have hmoved := l.refocused_setFocusedKey l.typeahead.reset k
    simp only
    split
    · exact .carryOut hmoved (.extend k)
    · split
      · exact .carryOut hmoved (.replace k)
      · exact .done hmoved

/-- **Keys.** A key that is ignored only shows the focus. -/
theorem responds_keyDown (stroke : KeyStroke) (mods : Modifiers) (layout : Option (Layout K))
    (now : Nat) : l.Responds False (l.keyDown stroke mods layout now) := by
  have hshown : l.Unveiled { l with model := l.model.setFocusVisible true } := ⟨rfl, true, rfl⟩
  unfold keyDown
  simp only
  split
  · exact .carryOut hshown.refocused .selectAll
  · refine .of_unveiled hshown ?_
    cases stroke with
    | arrowDown | arrowUp | arrowLeft | arrowRight | pageDown | pageUp | home | endKey =>
      exact responds_navigate ..
    | escape => exact responds_escape _
    | enter => exact responds_activateFocused ..
    | space | character => exact responds_type ..
    | tab => exact .ignore ⟨rfl, true, rfl⟩

end Keys

/-! ## Presses -/

theorem refocused_beginPress (l : ListControl K T) (k : K) (pointer : PointerType)
    (mods : Modifiers) (origin : Point) (now : Nat) :
    l.Refocused (l.beginPress k pointer mods origin now) := by
  obtain ⟨focus, hfocus⟩ :=
    ((l.model.setFocused true).setFocusVisible (pointer == .keyboard)).exists_setFocusedKey_eq
      (some k) none
  exact ⟨rfl, focus, hfocus⟩

/-- A press on the row selects it when it begins: it is made with the mouse, the row has no action to
run instead, and selecting does not wait for the end. -/
def SelectsAtOnce (l : ListControl K T) (k : K) (pointer : PointerType) : Prop :=
  pointer = .mouse ∧ l.hasPrimaryAction k = false ∧ l.config.selectOnPressUp = false ∧
    l.allowsSelection k = true

section PressStart

variable {pointer : PointerType} {mods : Modifiers} {origin : Point} {now : Nat}

theorem pressStart_of_not_reaches (hk : ¬ l.Reaches k) :
    l.pressStart k pointer mods origin now = l.answer .ignored := by
  rw [reaches_iff, Bool.not_eq_false] at hk
  rw [pressStart, if_pos hk]

theorem pressStart_of_selectsAtOnce (h : l.SelectsAtOnce k pointer) :
    l.pressStart k pointer mods origin now =
      (l.beginPress k pointer mods origin now).select k pointer mods := by
  obtain ⟨rfl, hprimary, hwaits, hallows⟩ := h
  have hopen := reaches_iff.1 (reaches_of_allowsSelection hallows)
  rw [← (l.refocused_beginPress k .mouse mods origin now).allowsSelection] at hallows
  unfold pressStart
  rw [if_neg (Bool.eq_false_iff.1 hopen)]
  simp only [hprimary, hwaits, hallows]
  rfl

theorem pressStart_of_begins (hk : l.Reaches k) (h : ¬ l.SelectsAtOnce k pointer) :
    l.pressStart k pointer mods origin now =
      (l.beginPress k pointer mods origin now).answer .done := by
  have hbegun := l.refocused_beginPress k pointer mods origin now
  unfold pressStart
  rw [if_neg (Bool.eq_false_iff.1 (reaches_iff.1 hk))]
  refine if_neg fun hselects => h ?_
  simp only [Bool.and_eq_true, Bool.not_eq_true', PointerType.selectsOnPressStart_iff,
    hbegun.allowsSelection] at hselects
  obtain ⟨⟨⟨hmouse, hprimary⟩, hwaits⟩, hallows⟩ := hselects
  exact ⟨hmouse, hprimary, hwaits, hallows⟩

end PressStart

/-- A press begins on a row in reach. A mouse then selects the row, if it has no action to run instead
and selecting does not wait for the end. -/
theorem pressStart_cases (l : ListControl K T) (k : K) (pointer : PointerType) (mods : Modifiers)
    (origin : Point) (now : Nat) :
    l.pressStart k pointer mods origin now = l.answer .ignored ∨
      l.pressStart k pointer mods origin now =
        (l.beginPress k pointer mods origin now).answer .done ∨
      (pointer = .mouse ∧ l.hasPrimaryAction k = false ∧ l.config.selectOnPressUp = false ∧
          (l.beginPress k pointer mods origin now).allowsSelection k = true) ∧
        l.pressStart k pointer mods origin now =
          (l.beginPress k pointer mods origin now).select k pointer mods := by
  rw [(l.refocused_beginPress k pointer mods origin now).allowsSelection]
  by_cases hk : l.Reaches k
  · by_cases h : l.SelectsAtOnce k pointer
    · exact Or.inr (Or.inr ⟨h, pressStart_of_selectsAtOnce h⟩)
    · exact Or.inr (Or.inl (pressStart_of_begins hk h))
  · exact Or.inl (pressStart_of_not_reaches hk)

theorem responds_pressStart (l : ListControl K T) (k : K) (pointer : PointerType) (mods : Modifiers)
    (origin : Point) (now : Nat) :
    l.Responds False (l.pressStart k pointer mods origin now) := by
  have hbegun := l.refocused_beginPress k pointer mods origin now
  rcases l.pressStart_cases k pointer mods origin now with h | h | ⟨⟨-, -, -, hallows⟩, h⟩
  · rw [h]
    exact .ignore (.refl l)
  · rw [h]
    exact .done hbegun
  · rw [h]
    exact .select hbegun (Or.inl hallows)

/-- The list control without the press that ends. -/
def released (l : ListControl K T) (target : Option K) (point : Point) (now : Nat) :
    ListControl K T :=
  { l with press := (l.press.finish target point now).2, pressContext := none }

theorem unveiled_released (l : ListControl K T) (target : Option K) (point : Point) (now : Nat) :
    l.Unveiled (l.released target point now) :=
  ⟨rfl, l.model.focus.visible, rfl⟩

theorem pressUp_of_click {l : ListControl K T} {target : Option K} {point : Point} {now : Nat}
    {click : Click K} {context : PressContext}
    (hclick : (l.press.finish target point now).1 = some click)
    (hcontext : l.pressContext = some context) :
    l.pressUp target point now = (l.released target point now).clicked click context := by
  unfold pressUp released
  generalize l.press.finish target point now = finished at hclick ⊢
  obtain ⟨_, press⟩ := finished
  cases hclick
  rw [hcontext]

/-- A press ends in a click on its row, if what is to be known of its start still is. -/
theorem pressUp_cases (l : ListControl K T) (target : Option K) (point : Point) (now : Nat) :
    l.pressUp target point now = (l.released target point now).answer .ignored ∨
      ∃ click context, (l.press.finish target point now).1 = some click ∧
        l.pressContext = some context ∧
        l.pressUp target point now = (l.released target point now).clicked click context := by
  unfold pressUp released
  obtain ⟨click, press⟩ := l.press.finish target point now
  cases click with
  | none => exact Or.inl rfl
  | some click =>
    cases l.pressContext with
    | none => exact Or.inl rfl
    | some context => exact Or.inr ⟨click, context, rfl, rfl, rfl⟩

/-- The press that ends was made with the mouse, and began when its row had an action to run. The row
is still in reach, but has no action any more. -/
def Outdated (l : ListControl K T) : Event K T → Prop
  | .pressUp target point now =>
    ∃ click context, (l.press.finish target point now).1 = some click ∧
      l.pressContext = some context ∧ click.pointer = .mouse ∧ click.afterLongPress = false ∧
      context.hadPrimaryAction = true ∧ l.Reaches click.key ∧ l.allowsActions click.key = false
  | _ => False

/-- If the pressed row had a primary action, then it is a link to be followed or the list has actions
of its own. -/
def Remembers (l : ListControl K T) : Prop :=
  ∀ context k, l.pressContext = some context → l.press.pressedKey? = some k →
    context.hadPrimaryAction = true → l.config.hasAction = true ∨ l.followsLink k = true

theorem not_outdated_of_remembers {e : Event K T} (h : l.Remembers) : ¬ l.Outdated e := by
  intro houtdated
  cases e with
  | pressUp target point now =>
    obtain ⟨click, context, hclick, hcontext, -, -, hprimary, hreaches, hactions⟩ := houtdated
    obtain ⟨press, hactive, hkey, -⟩ := PressTracker.exists_active_of_finish hclick
    have hpressed : l.press.pressedKey? = some click.key := by
      rw [PressTracker.pressedKey?, hactive, hkey]
      rfl
    have hallowed := allowsActions_iff.2 ⟨hreaches, h context click.key hcontext hpressed hprimary⟩
    rw [hactions] at hallowed
    cases hallowed
  | _ => exact houtdated

/-- What is remembered when a press begins is the case. -/
theorem remembers_beginPress (l : ListControl K T) (k : K) (pointer : PointerType)
    (mods : Modifiers) (origin : Point) (now : Nat) :
    (l.beginPress k pointer mods origin now).Remembers := by
  rintro context _ ⟨⟩ ⟨⟩ hprimary
  have hactions := allowsActions_of_hasPrimaryAction hprimary
  rw [← (l.refocused_beginPress k pointer mods origin now).allowsActions] at hactions
  exact (allowsActions_iff.1 hactions).2

theorem responds_clicked {click : Click K} {context : PressContext}
    (hlate : click.pointer = .mouse → click.afterLongPress = false →
      context.hadPrimaryAction = true → l.Reaches click.key →
        l.allowsActions click.key = true ∨ late) :
    l.Responds late (l.clicked click context) := by
  have hself := (Unveiled.refl l).refocused
  rcases l.clicked_cases click context with
    (h | h) | ⟨⟨hlong, hreaches, haction⟩, h⟩ | ⟨⟨hallows, -⟩, h⟩
  · rw [h]
    exact .ignore (.refl l)
  · rw [h]
    exact .done hself
  · rw [h]
    refine .act hself ?_
    rcases haction with haction | ⟨hmouse, hprimary⟩
    · exact Or.inl (allowsActions_of_hasAction haction)
    · exact hlate hmouse hlong hprimary hreaches
  · rw [h]
    exact .select hself (Or.inl hallows)

/-- **The end of a press.** The activation that comes with it is warranted, unless the press is
outdated. -/
theorem responds_pressUp (l : ListControl K T) (target : Option K) (point : Point) (now : Nat) :
    l.Responds (l.Outdated (.pressUp target point now)) (l.pressUp target point now) := by
  have hreleased := l.unveiled_released target point now
  rcases l.pressUp_cases target point now with h | ⟨click, context, hclick, hcontext, h⟩
  · rw [h]
    exact .ignore hreleased
  · rw [h]
    refine .of_unveiled hreleased (responds_clicked fun hmouse hlong hprimary hreaches => ?_)
    rcases Bool.eq_false_or_eq_true (l.allowsActions click.key) with hactions | hactions
    · exact Or.inl hactions
    · exact Or.inr ⟨click, context, hclick, hcontext, hmouse, hlong, hprimary, hreaches, hactions⟩

/-- A press with the mouse that does not wait for its end to select, on a row that had no action to
run, ends without a selection. -/
theorem exists_pressUp_eq_answer (target : Option K) (point : Point) (now : Nat)
    (hmouse : l.press.pointer? = some .mouse)
    (hcontext : ∀ context, l.pressContext = some context → context.hadPrimaryAction = false)
    (hwaits : l.config.selectOnPressUp = false) :
    ∃ result, l.pressUp target point now = (l.released target point now).answer result ∧
      ∀ a, result.activation = some a → l.Warrants a := by
  rcases l.pressUp_cases target point now with h | ⟨click, context, hclick, hstart, h⟩
  · exact ⟨.ignored, h, nofun⟩
  · obtain ⟨press, hactive, -, hpress⟩ := PressTracker.exists_active_of_finish hclick
    have hpointer : click.pointer = .mouse := by
      rw [hpress]
      simpa [PressTracker.pointer?, hactive] using hmouse
    have hprimary := hcontext context hstart
    rcases (l.released target point now).clicked_cases click context with
      (hanswer | hanswer) | ⟨⟨-, -, haction⟩, hanswer⟩ | ⟨⟨-, hselects⟩, -⟩
    · exact ⟨.ignored, h.trans hanswer, nofun⟩
    · exact ⟨.done, h.trans hanswer, nofun⟩
    · refine ⟨_, h.trans hanswer, fun a ha => ?_⟩
      cases ha
      rcases haction with haction | ⟨-, hremembered⟩
      · exact warrants_activation_iff.2 (allowsActions_of_hasAction haction)
      · rw [hprimary] at hremembered
        cases hremembered
    · have hselects : l.config.selectOnPressUp = true := hselects hpointer
      rw [hwaits] at hselects
      cases hselects

/-- **Clicks at once.** Of the two halves of a click at most one carries out a gesture. -/
theorem responds_click (l : ListControl K T) (k : K) (pointer : PointerType) (mods : Modifiers)
    (now : Nat) : l.Responds False (l.click k pointer mods now) := by
  have hbegun := l.refocused_beginPress k pointer mods .zero now
  unfold click
  rcases l.pressStart_cases k pointer mods .zero now with
    h | h | ⟨⟨hpointer, hprimary, hwaits, hallows⟩, h⟩
  · rw [h]
    exact .ignore (.refl l)
  · rw [h]
    have hup := (l.beginPress k pointer mods .zero now).responds_pressUp (some k) .zero now
    have hremembers := l.remembers_beginPress k pointer mods .zero now
    exact .used hbegun hup (not_outdated_of_remembers hremembers)
  · rw [h]
    have hdown : l.Responds False ((l.beginPress k pointer mods .zero now).select k pointer mods) :=
      .select hbegun (Or.inl hallows)
    generalize hselect : (l.beginPress k pointer mods .zero now).select k pointer mods = down
      at hdown
    have hmouse : down.control.press.pointer? = some .mouse := by
      rw [← hselect, ← hpointer]
      rfl
    have hcontext : ∀ context, down.control.pressContext = some context →
        context.hadPrimaryAction = false := by
      rw [← hselect]
      rintro context ⟨⟩
      exact hprimary
    have hwaits : down.control.config.selectOnPressUp = false := by
      rw [hdown.config]
      exact hwaits
    obtain ⟨result, hup, hwarrants⟩ :=
      exists_pressUp_eq_answer (some k) .zero now hmouse hcontext hwaits
    have hhandled : down.result.handled = true := by
      rw [← hselect]
      rfl
    simp only [hhandled, hup, answer, List.append_nil]
    exact hdown.afterwards rfl rfl hwarrants

/-! ## The other events -/

/-- A pointer that strays gives the press up, and the answer says so. -/
theorem pressMove_eq_cases (l : ListControl K T) (point : Point) :
    l.pressMove point = (true, l.pressCancel) ∨ l.pressMove point = (false, l) := by
  unfold pressMove PressTracker.move
  by_cases hstrays : l.press.active.any fun press =>
      PressTracker.strays l.press.config press.origin point
  · rw [if_pos hstrays]
    exact Or.inl rfl
  · rw [if_neg hstrays]
    exact Or.inr rfl

theorem pressMove_cases (l : ListControl K T) (point : Point) :
    (l.pressMove point).2 = l.pressCancel ∨ (l.pressMove point).2 = l := by
  rcases l.pressMove_eq_cases point with h | h
  · rw [h]
    exact Or.inl rfl
  · rw [h]
    exact Or.inr rfl

/-- What is held down since the press began. -/
def pressModifiers (l : ListControl K T) : Modifiers :=
  (l.pressContext.map (·.modifiers)).getD {}

/-- A poll is ignored, or it selects the row of a long press and then makes the list toggle. -/
theorem poll_cases (l : ListControl K T) (now : Nat) :
    l.poll now = ListControl.answer { l with press := (l.press.poll now).2 } .ignored ∨
      ∃ k, ((l.press.poll now).1 = some k ∧ l.allowsLongPress k = true) ∧
        l.poll now =
          { control :=
              { l with
                press := (l.press.poll now).2
                model := (l.selectWith k .touch l.pressModifiers).1.model.setBehavior .toggle }
            reports := (l.selectWith k .touch l.pressModifiers).1.reports
            result := .activate (l.selectWith k .touch l.pressModifiers).2 } := by
  unfold poll
  obtain ⟨held, press⟩ := l.press.poll now
  cases held with
  | none => exact Or.inl rfl
  | some k =>
    simp only
    split
    · next hallows => exact Or.inr ⟨k, ⟨rfl, hallows⟩, rfl⟩
    · exact Or.inl rfl

theorem undergoes_selectWith (l : ListControl K T) (k : K) (pointer : PointerType)
    (mods : Modifiers) : l.model.Undergoes (l.selectWith k pointer mods).1 := by
  rcases l.selectWith_cases k pointer mods with h | ⟨g, -, h⟩
  · rw [h]
    exact .rest l.model.focus
  · rw [h]
    exact .gesture l.model.focus g

/-- A poll makes the list toggle at most, besides what comes of selecting. -/
theorem sameRows_poll (l : ListControl K T) (now : Nat) :
    l.model.SameRows (l.poll now).control.model := by
  rcases l.poll_cases now with h | ⟨k, -, h⟩
  · rw [h]
    exact ⟨rfl, rfl, rfl⟩
  · have hrows := (l.undergoes_selectWith k .touch l.pressModifiers).sameRows
    rw [h]
    exact ⟨hrows.edition, hrows.config, hrows.disabledKeys⟩

theorem config_poll (l : ListControl K T) (now : Nat) :
    (l.poll now).control.config = l.config := by
  rcases l.poll_cases now with h | ⟨k, -, h⟩
  · rw [h]
    rfl
  · rw [h]

theorem undergoes_focusIn (l : ListControl K T) (entry : FocusEntry) :
    l.model.Undergoes (l.focusIn entry) := by
  unfold focusIn
  simp only
  split
  · next k _ _ =>
    obtain ⟨focus, hfocus⟩ :=
      (l.model.setFocused true).exists_setFocusedKey_eq (some k) none
    rw [hfocus]
    split
    · exact .gesture focus (.replace k)
    · exact .rest focus
  · exact .rest _

end ListControl

/-- The event is no poll, brings no edition and is no operation on the model. -/
def Event.IsDirect : Event K T → Prop
  | .poll _ | .setEdition _ | .operation _ => False
  | _ => True

namespace ListControl

variable {l : ListControl K T}

/-- **Inputs.** A direct event moves the focus, and then carries out one gesture at most. -/
theorem undergoes_handle (l : ListControl K T) {e : Event K T} (he : e.IsDirect) :
    l.model.Undergoes (l.handle e).updated := by
  cases e with
  | pressStart k pointer mods origin now =>
    exact (l.responds_pressStart k pointer mods origin now).effect
  | pressMove point =>
    have hmodel : (l.pressMove point).2.model = l.model := by
      rcases l.pressMove_cases point with h | h
      · rw [h]
        rfl
      · rw [h]
    have hupdated : (l.handle (.pressMove point)).updated = l.model.still := by
      rw [← hmodel]
      rfl
    rw [hupdated]
    exact .rest l.model.focus
  | pressUp target point now => exact (l.responds_pressUp target point now).effect
  | pressCancel => exact .rest l.model.focus
  | click k pointer mods now => exact (l.responds_click k pointer mods now).effect
  | keyDown stroke mods layout now => exact (l.responds_keyDown stroke mods layout now).effect
  | focusIn entry => exact l.undergoes_focusIn entry
  | focusOut => exact .rest _
  | poll | setEdition | operation => exact he.elim

/-! ## Runs -/

/-- Something is true of every event of a run, in the list control that it comes upon. -/
def Throughout (p : ListControl K T → Event K T → Prop) (l : ListControl K T) :
    List (Event K T) → Prop
  | [] => True
  | e :: events => p l e ∧ (l.handle e).control.Throughout p events

theorem run_concat (l : ListControl K T) (events : List (Event K T)) (e : Event K T) :
    l.run (events ++ [e]) = ((l.run events).handle e).control := by
  rw [run, List.foldl_append]
  rfl

variable (I : ListControl K T → Prop) {p q : ListControl K T → Event K T → Prop}
variable {events : List (Event K T)}

theorem throughout_concat_iff {e : Event K T} :
    l.Throughout p (events ++ [e]) ↔ l.Throughout p events ∧ p (l.run events) e := by
  induction events generalizing l with
  | nil => exact and_comm
  | cons e' events ih =>
    rw [List.cons_append, Throughout, ih, Throughout, and_assoc]
    rfl

/-- What an invariant gives at each step is true throughout. -/
theorem throughout_of_invariant (hl : I l)
    (hstep : ∀ l, ∀ e ∈ events, I l → p l e ∧ I (l.handle e).control) : l.Throughout p events := by
  induction events generalizing l with
  | nil => trivial
  | cons e events ih =>
    obtain ⟨hp, hl⟩ := hstep l e List.mem_cons_self hl
    exact ⟨hp, ih hl fun l e he => hstep l e (List.mem_cons_of_mem _ he)⟩

/-- Two things come to the same throughout if they do so at each step, as long as an invariant
holds which either of them keeps up. -/
theorem throughout_congr (hl : I l) (hsame : ∀ l, ∀ e ∈ events, I l → (p l e ↔ q l e))
    (hstep : ∀ l, ∀ e ∈ events, I l → p l e → I (l.handle e).control) :
    l.Throughout p events ↔ l.Throughout q events := by
  induction events generalizing l with
  | nil => exact Iff.rfl
  | cons e events ih =>
    rw [Throughout, Throughout, ← hsame l e List.mem_cons_self hl]
    refine and_congr_right fun hp => ih (hstep l e List.mem_cons_self hl hp) ?_ ?_
    · exact fun l e he => hsame l e (List.mem_cons_of_mem _ he)
    · exact fun l e he => hstep l e (List.mem_cons_of_mem _ he)

end ListControl

end Listbox
