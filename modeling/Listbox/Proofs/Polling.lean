import Listbox.Proofs.PressFrame
import Listbox.Proofs.Request

set_option autoImplicit false

/-! # Polling for a long press

A poll that is answered as ignored ought to leave no trace. It leaves one: a touch that has been
held long enough is marked as a long press even if its row has no use for one, and from then on the
press is not reported as a long one any more and does not end in a click that does anything.
`poll_transparent_iff` says that nothing else comes of it: what follows is the same as without the
poll exactly if no event takes notice of the mark while the press lasts.

The argument compares a list control with its marked copy, event by event. Most events come to the
same in both and carry the mark along, or end the press and lose it; the others are `Heeds`. -/

universe u v

namespace Listbox

/-! ## Marked presses -/

/-- The press that is going on, if there is one, counts as a long one. -/
def PressTracker.marked {K : Type u} (t : PressTracker K) : PressTracker K :=
  { t with active := t.active.map fun press => { press with longPressed := true } }

namespace PressTracker

variable {K : Type u} (t : PressTracker K)

theorem marked_marked : t.marked.marked = t.marked := by
  unfold marked
  cases t.active with
  | none => rfl
  | some press => rfl

theorem pressedKey?_marked : t.marked.pressedKey? = t.pressedKey? := by
  unfold marked pressedKey?
  cases t.active with
  | none => rfl
  | some press => rfl

/-- A poll does nothing, or it reports the press and marks it. -/
theorem poll_cases (now : Nat) : t.poll now = (none, t) ∨ ∃ k, t.poll now = (some k, t.marked) := by
  unfold poll marked
  cases t.active with
  | none => exact Or.inl rfl
  | some press =>
    simp only
    split
    · exact Or.inr ⟨press.key, rfl⟩
    · exact Or.inl rfl

theorem poll_marked (now : Nat) : t.marked.poll now = (none, t.marked) := by
  unfold poll marked
  cases t.active with
  | none => rfl
  | some press => rfl

/-- Moving gives a marked press up like any other. -/
theorem move_marked (point : Point) :
    t.marked.move point =
      ((t.move point).1,
        if (t.move point).1 then (t.move point).2 else (t.move point).2.marked) := by
  obtain ⟨config, active, lastClick⟩ := t
  cases active with
  | none => rfl
  | some press =>
    by_cases hstrays : strays config press.origin point
    · simp [marked, move, cancel, hstrays]
    · simp [marked, move, hstrays]

/-- A marked press ends like any other, in a click that knows of the mark. -/
theorem finish_marked [DecidableEq K] (target : Option K) (point : Point) (now : Nat) :
    t.marked.finish target point now =
      ((t.finish target point now).1.map fun click => { click with afterLongPress := true },
        (t.finish target point now).2) := by
  obtain ⟨config, active, lastClick⟩ := t
  cases active with
  | none => rfl
  | some press =>
    have hcount : ∀ active, clickCount ⟨config, active, lastClick⟩ press.key now =
        clickCount ⟨config, some press, lastClick⟩ press.key now := fun _ => rfl
    by_cases hclick : target = some press.key ∧ strays config press.origin point = false
    · simp [marked, finish, hclick, hcount]
    · simp [marked, finish, cancel, hclick]

end PressTracker

variable {K : Type u} {T : Type v} [DecidableEq K] [Hashable K]

/-! ## Marked list controls -/

/-- The list control with its press counted as a long one. -/
def ListControl.marked (l : ListControl K T) : ListControl K T := l.withPress l.press.marked

/-- The reaction with the press marked that is left after it. -/
def Reaction.marked {α : Type u} (r : Reaction K T α) : Reaction K T α :=
  { r with control := r.control.marked }

namespace ListControl

variable (l : ListControl K T)

theorem marked_marked : l.marked.marked = l.marked := by
  unfold marked
  exact congrArg l.withPress l.press.marked_marked

/-- Whether the press that is going on before an event, if there is one, still is after it. -/
def pressOutlasts (l : ListControl K T) : Event K T → Bool
  | .pressStart k pointer mods origin now =>
    !(l.pressStart k pointer mods origin now).result.handled
  | .pressMove point => !(l.pressMove point).1
  | .pressUp .. | .pressCancel => false
  | .click k pointer mods now => !(l.click k pointer mods now).result.handled
  | .setEdition e => l.press.pressedKey?.all e.collection.contains
  | .poll _ | .keyDown .. | .focusIn _ | .focusOut | .operation _ => true

/-- A press that begins puts an end to the one before it. -/
theorem pressStart_marked (k : K) (pointer : PointerType) (mods : Modifiers) (origin : Point)
    (now : Nat) :
    l.marked.pressStart k pointer mods origin now =
      if (l.pressStart k pointer mods origin now).result.handled then
        l.pressStart k pointer mods origin now
      else (l.pressStart k pointer mods origin now).marked := by
  by_cases hbarred : l.model.isDisabled k || !l.model.collection.contains k
  · have hignored : l.pressStart k pointer mods origin now = l.answer .ignored := if_pos hbarred
    have hignored' : l.marked.pressStart k pointer mods origin now = l.marked.answer .ignored :=
      if_pos hbarred
    rw [hignored, hignored']
    rfl
  · have hsame : l.marked.pressStart k pointer mods origin now =
        l.pressStart k pointer mods origin now := by
      rw [pressStart, pressStart, if_neg hbarred]
      exact if_neg hbarred
    have hhandled : (l.pressStart k pointer mods origin now).result.handled = true := by
      unfold pressStart
      rw [if_neg hbarred]
      simp only
      split
      · rfl
      · rfl
    rw [hsame, if_pos hhandled]

theorem click_marked (k : K) (pointer : PointerType) (mods : Modifiers) (now : Nat) :
    l.marked.click k pointer mods now =
      if (l.click k pointer mods now).result.handled then l.click k pointer mods now
      else (l.click k pointer mods now).marked := by
  unfold click
  rw [pressStart_marked]
  cases hdown : (l.pressStart k pointer mods .zero now).result.handled with
  | true => simp [hdown, Response.activate]
  | false => simp [hdown, Reaction.marked]

theorem press_keyDown (stroke : KeyStroke) (mods : Modifiers) (layout : Option (Layout K))
    (now : Nat) : (l.keyDown stroke mods layout now).control.press = l.press :=
  congrArg (·.control.press) (l.keyDown_withPress l.press stroke mods layout now)

theorem keyDown_marked (stroke : KeyStroke) (mods : Modifiers) (layout : Option (Layout K))
    (now : Nat) :
    l.marked.keyDown stroke mods layout now = (l.keyDown stroke mods layout now).marked := by
  rw [marked, keyDown_withPress, Reaction.marked, marked, press_keyDown]
  rfl

theorem pressMove_marked (point : Point) :
    l.marked.pressMove point =
      ((l.pressMove point).1,
        if (l.pressMove point).1 then (l.pressMove point).2 else (l.pressMove point).2.marked) := by
  unfold pressMove
  rw [show l.marked.press = l.press.marked from rfl, PressTracker.move_marked]
  obtain ⟨given, press⟩ := l.press.move point
  cases given with
  | true => rfl
  | false => rfl

theorem setEdition_marked (e : Edition K T) :
    l.marked.setEdition e =
      if l.press.pressedKey?.all e.collection.contains then (l.setEdition e).marked
      else l.setEdition e := by
  unfold setEdition
  rw [show l.marked.press.pressedKey? = l.press.pressedKey? from l.press.pressedKey?_marked]
  cases l.press.pressedKey?.all e.collection.contains with
  | true => rfl
  | false => rfl

/-- **The mark is carried along.** Apart from the end of the press and from polls, a marked list
control does the same as it would without the mark, which it keeps as long as the press. -/
theorem handle_marked {e : Event K T} (hup : ∀ target point now, e ≠ .pressUp target point now)
    (hpoll : ∀ now, e ≠ .poll now) :
    l.marked.handle e = if l.pressOutlasts e then (l.handle e).marked else l.handle e := by
  cases e with
  | pressStart k pointer mods origin now =>
    by_cases hhandled : (l.pressStart k pointer mods origin now).result.handled
    · simp [handle, pressOutlasts, pressStart_marked, hhandled]
    · simp only [handle, pressOutlasts, pressStart_marked, hhandled]
      rfl
  | pressMove point =>
    by_cases hgiven : (l.pressMove point).1
    · simp [handle, pressOutlasts, pressMove_marked, hgiven]
    · simp only [handle, pressOutlasts, pressMove_marked, hgiven]
      rfl
  | pressUp target point now => exact absurd rfl (hup target point now)
  | pressCancel => rfl
  | click k pointer mods now =>
    by_cases hhandled : (l.click k pointer mods now).result.handled
    · simp [handle, pressOutlasts, click_marked, hhandled]
    · simp only [handle, pressOutlasts, click_marked, hhandled]
      rfl
  | poll now => exact absurd rfl (hpoll now)
  | keyDown stroke mods layout now =>
    simp only [handle, keyDown_marked]
    rfl
  | focusIn entry => rfl
  | focusOut => rfl
  | setEdition e => exact l.setEdition_marked e
  | operation op => rfl

/-- A poll that is answered as ignored leaves the list control as it was, or marks the press. -/
theorem poll_of_unhandled {now : Nat} (h : (l.poll now).result.handled = false) :
    l.poll now = (if (l.press.poll now).1.isSome then l.marked else l).answer .ignored := by
  unfold poll at h ⊢
  rcases l.press.poll_cases now with hnone | ⟨k, hsome⟩
  · rw [hnone]
    rfl
  · rw [hsome] at h ⊢
    simp only at h ⊢
    split at h
    · cases h
    · next hbarred =>
      rw [if_neg hbarred]
      rfl

/-- A poll is handled if a press has become a long one just now, on a row that has a use for it. -/
theorem handled_poll_iff {now : Nat} :
    (l.poll now).result.handled = true ↔
      ∃ k, (l.press.poll now).1 = some k ∧ l.allowsLongPress k := by
  unfold poll
  rcases l.press.poll_cases now with hnone | ⟨k, hsome⟩
  · rw [hnone]
    exact iff_of_false nofun nofun
  · rw [hsome]
    simp only
    split
    · next hallows => exact iff_of_true rfl ⟨k, rfl, hallows⟩
    · next hbarred =>
      refine iff_of_false nofun ?_
      rintro ⟨_, ⟨⟩, hallows⟩
      exact hbarred hallows

theorem poll_marked (now : Nat) : l.marked.poll now = l.marked.answer .ignored := by
  unfold poll
  rw [show l.marked.press = l.press.marked from rfl, PressTracker.poll_marked]
  rfl

/-! ## What can be seen -/

end ListControl

/-- What can be seen of an event: the answer, what is announced, what is selected afterwards, as it
is stored and as it comes out, and where the focus is. -/
@[ext]
structure Observation (K : Type u) where
  answer : Answer K
  reports : List (Selection K)
  selection : Selection K
  selectedKeys : KeySet K
  focus : Focus K

def Reaction.observe (r : Reaction K T (Answer K)) : Observation K :=
  { answer := r.result
    reports := r.reports
    selection := r.control.model.selection
    selectedKeys := r.control.model.selectedKeys
    focus := r.control.model.focus }

namespace ListControl

/-- What can be seen of a run of events. -/
def trace (l : ListControl K T) : List (Event K T) → List (Observation K)
  | [] => []
  | e :: events => (l.handle e).observe :: (l.handle e).control.trace events

variable (l : ListControl K T)

/-- What can be seen of a click that is used up and changes nothing. -/
def swallowed : Observation K := ((l.answer (Answer.response .done) : Reaction K T _)).observe

/-- The event takes notice of a mark on the press: it ends the press in a click that does something,
or it is a poll that reports the press. -/
def Heeds (l : ListControl K T) : Event K T → Prop
  | .pressUp target point now =>
    (l.press.finish target point now).1.isSome ∧ l.pressContext.isSome ∧
      (l.handle (.pressUp target point now)).observe ≠ l.swallowed
  | .poll now => (l.poll now).result.handled = true
  | _ => False

/-- No event takes notice of a mark on the press, as long as the press lasts. -/
def Unheeded (l : ListControl K T) : List (Event K T) → Prop
  | [] => True
  | e :: events =>
    ¬ l.Heeds e ∧ (l.pressOutlasts e = true → (l.handle e).control.Unheeded events)

variable {l}

/-- **The mark swallows the click.** A press that does not end in a click ends with the mark as
without it. A click is carried out without the mark, and used up with it. -/
theorem pressUp_marked (target : Option K) (point : Point) (now : Nat) :
    (¬ ((l.press.finish target point now).1.isSome ∧ l.pressContext.isSome) ∧
        l.marked.pressUp target point now = l.pressUp target point now) ∨
      ∃ ended click context,
        ended.model = l.model ∧
        ((l.press.finish target point now).1.isSome ∧ l.pressContext.isSome) ∧
        l.marked.pressUp target point now = ListControl.answer ended .done ∧
        l.pressUp target point now = ended.clicked click context := by
  unfold pressUp
  rw [show l.marked.press = l.press.marked from rfl, PressTracker.finish_marked,
    show l.marked.pressContext = l.pressContext from rfl]
  obtain ⟨click, press⟩ := l.press.finish target point now
  cases click with
  | none => exact Or.inl ⟨nofun, rfl⟩
  | some click =>
    cases l.pressContext with
    | none => exact Or.inl ⟨nofun, rfl⟩
    | some context =>
      let ended : ListControl K T := { l with press, pressContext := none }
      exact Or.inr ⟨ended, click, context, rfl, ⟨rfl, rfl⟩, rfl, rfl⟩

/-- Selecting a row follows a link, is announced, or changes what is stored. -/
def Tells (l : ListControl K T) (k : K) (pointer : PointerType) (mods : Modifiers) : Prop :=
  (l.selectWith k pointer mods).2 ≠ none ∨ (l.selectWith k pointer mods).1.reports ≠ [] ∨
    (l.selectWith k pointer mods).1.model.selection ≠ l.model.selection

theorem observe_select_iff {k : K} {pointer : PointerType} {mods : Modifiers}
    (hk : l.model.canSelect k) :
    (respond (l.select k pointer mods)).observe = l.swallowed ↔ ¬ l.Tells k pointer mods := by
  rw [Tells, not_or, not_or, Classical.not_not, Classical.not_not, Classical.not_not]
  constructor
  · intro hsame
    have hresult : Response.activate (l.selectWith k pointer mods).2 = .done :=
      Answer.response.inj (congrArg Observation.answer hsame)
    exact ⟨congrArg Response.activation hresult, congrArg Observation.reports hsame,
      congrArg Observation.selection hsame⟩
  · rintro ⟨hfollow, hreports, hselection⟩
    have hcontrol : (l.select k pointer mods).control = l := control_select hk hselection
    have hresult : (l.select k pointer mods).result = .done :=
      congrArg Response.activate hfollow
    ext1
    · exact congrArg Answer.response hresult
    · exact hreports
    all_goals simp only [respond, Reaction.observe, hcontrol, swallowed, answer]

/-- A press without a mark that ends in a click does something, unless it is made with the mouse, if
its row is out of reach by now, has an action to run, or is selected to some effect. -/
theorem heeds_pressUp_iff {target : Option K} {point : Point} {now : Nat} {click : Click K}
    {press : PressTracker K} {context : PressContext}
    (hfinish : l.press.finish target point now = (some click, press))
    (hcontext : l.pressContext = some context) (hlong : click.afterLongPress = false)
    (hmouse : click.pointer ≠ .mouse) :
    l.Heeds (.pressUp target point now) ↔
      (l.model.isDisabled click.key || !l.model.collection.contains click.key) = true ∨
        l.runsAction click.key = true ∨
          l.allowsSelection click.key = true ∧
            l.Tells click.key click.pointer context.modifiers := by
  let ended : ListControl K T := { l with press, pressContext := none }
  have hup : l.pressUp target point now = ended.clicked click context := by
    simp only [pressUp, hfinish, hcontext]
    rfl
  have hheeds : l.Heeds (.pressUp target point now) ↔
      (respond (ended.clicked click context)).observe ≠ ended.swallowed := by
    simp only [Heeds, handle, hup, hfinish, hcontext, Option.isSome_some, true_and]
    rfl
  have hanswer : ∀ r, (respond (ended.answer r)).observe = ended.swallowed → r = .done :=
    fun r hsame => Answer.response.inj (congrArg Observation.answer hsame)
  -- whether a press is going on makes no difference to what can be done to a row
  change _ ↔
    (ended.model.isDisabled click.key || !ended.model.collection.contains click.key) = true ∨
      ended.runsAction click.key = true ∨ ended.allowsSelection click.key = true ∧
        ended.Tells click.key click.pointer context.modifiers
  rw [hheeds, clicked_of_ne_mouse hlong hmouse]
  by_cases hbarred : ended.model.isDisabled click.key || !ended.model.collection.contains click.key
  · rw [if_pos hbarred]
    exact iff_of_true (fun hsame => nomatch hanswer _ hsame) (Or.inl hbarred)
  rw [if_neg hbarred, or_iff_right hbarred]
  by_cases hruns : ended.runsAction click.key
  · rw [if_pos hruns]
    exact iff_of_true (fun hsame => nomatch hanswer _ hsame) (Or.inl hruns)
  rw [if_neg hruns, or_iff_right hruns]
  by_cases hallows : ended.allowsSelection click.key
  · have hk : ended.model.canSelect click.key := (Bool.and_eq_true_iff.1 hallows).2
    rw [if_pos hallows, and_iff_right hallows, Ne, observe_select_iff hk, Classical.not_not]
  · rw [if_neg hallows]
    exact iff_of_false (fun hother => hother rfl) fun h => hallows h.1

/-! ## Event by event -/

theorem observe_marked_iff {e : Event K T} :
    (l.marked.handle e).observe = (l.handle e).observe ↔ ¬ l.Heeds e := by
  cases e with
  | pressUp target point now =>
    rcases l.pressUp_marked target point now with
      ⟨hclick, hsame⟩ | ⟨ended, click, context, hmodel, hclick, hmarked, -⟩
    · exact iff_of_true (congrArg (fun r => (respond r).observe) hsame)
        fun hheeds => hclick ⟨hheeds.1, hheeds.2.1⟩
    · have hswallowed : (l.marked.handle (.pressUp target point now)).observe = l.swallowed := by
        simp only [handle, hmarked, swallowed, respond, answer, Reaction.observe, hmodel]
      rw [hswallowed, Heeds, not_and, not_and, Classical.not_not]
      exact ⟨fun hsame _ _ => hsame.symm, fun hsame => (hsame hclick.1 hclick.2).symm⟩
  | poll now =>
    have hmarked : l.marked.handle (.poll now) = respond (l.marked.answer .ignored) :=
      congrArg respond (l.poll_marked now)
    rw [hmarked, Heeds, Bool.not_eq_true]
    constructor
    · intro hsame
      have hanswer : Answer.response .ignored = .response (l.poll now).result :=
        congrArg Observation.answer hsame
      exact congrArg Response.handled (Answer.response.inj hanswer).symm
    · intro hunhandled
      rw [handle, l.poll_of_unhandled hunhandled]
      split
      · rfl
      · rfl
  | _ =>
    rw [l.handle_marked (by simp) (by simp)]
    refine iff_of_true ?_ id
    split
    · rfl
    · rfl

theorem control_marked {e : Event K T} (h : ¬ l.Heeds e) :
    (l.marked.handle e).control =
      if l.pressOutlasts e then (l.handle e).control.marked else (l.handle e).control := by
  cases e with
  | pressUp target point now =>
    rcases l.pressUp_marked target point now with
      ⟨-, hsame⟩ | ⟨ended, click, context, hmodel, hclick, hmarked, hunmarked⟩
    · exact congrArg (·.control) hsame
    · have hswallowed : (l.handle (.pressUp target point now)).observe = l.swallowed :=
        Classical.not_not.1 fun hother => h ⟨hclick.1, hclick.2, hother⟩
      have hselection : (l.pressUp target point now).control.model.selection = l.model.selection :=
        congrArg Observation.selection hswallowed
      rw [hunmarked, ← hmodel] at hselection
      simp only [handle, hmarked, hunmarked]
      exact (control_clicked hselection).symm
  | poll now =>
    rw [Heeds, Bool.not_eq_true] at h
    rw [if_pos (show l.pressOutlasts (.poll now) = true from rfl)]
    simp only [handle, l.poll_marked, l.poll_of_unhandled h]
    -- whether or not this poll marks the press, it is marked in both
    split
    · exact l.marked_marked.symm
    · rfl
  | _ =>
    rw [l.handle_marked (by simp) (by simp)]
    exact apply_ite _ _ _ _

theorem trace_marked_iff {events : List (Event K T)} :
    l.marked.trace events = l.trace events ↔ l.Unheeded events := by
  induction events generalizing l with
  | nil => exact iff_of_true rfl trivial
  | cons e events ih =>
    simp only [trace, Unheeded, List.cons.injEq, observe_marked_iff]
    refine and_congr_right fun hheeds => ?_
    rw [control_marked hheeds]
    cases l.pressOutlasts e with
    | true => exact ih.trans ⟨fun h _ => h, fun h => h rfl⟩
    | false => exact iff_of_true rfl nofun

/-- **Polling.** After a poll that is answered as ignored, whatever happens next comes to the same
as without the poll exactly if the poll has not marked the press, or no event takes notice of the
mark while the press lasts. -/
theorem poll_transparent_iff {now : Nat} {events : List (Event K T)}
    (h : (l.poll now).result.handled = false) :
    (l.poll now).control.trace events = l.trace events ↔
      (l.press.poll now).1 = none ∨ l.Unheeded events := by
  rw [poll_of_unhandled l h, ← trace_marked_iff]
  cases (l.press.poll now).1 with
  | none => exact iff_of_true rfl (Or.inl rfl)
  | some k => simp [answer]

/-- A press that selects nothing when it begins only begins. -/
theorem pressStart_of_canSelect {k : K} {pointer : PointerType} {mods : Modifiers} {origin : Point}
    {now : Nat} (hk : l.model.canSelect k) (hpointer : pointer.selectsOnPressStart = false) :
    l.pressStart k pointer mods origin now =
      (l.beginPress k pointer mods origin now).answer .done := by
  have hopen : (l.model.isDisabled k || !l.model.collection.contains k) = false := by
    rw [SelectionModel.not_isDisabled_of_canSelect hk, SelectionModel.contains_of_canSelect hk]
    rfl
  unfold pressStart
  rw [if_neg (Bool.eq_false_iff.1 hopen), hpointer]
  rfl

/-- A finger on the first row. -/
def finger : PressTracker Nat := PressTracker.start (.new {}) 1 .touch .zero 0

theorem poll_finger : (finger.poll 600).1 = some 1 := by decide +kernel

theorem finish_finger :
    (finger.finish (some 1) .zero 700).1 =
      some { key := 1, pointer := .touch, count := 1, afterLongPress := false } := by
  decide +kernel

/-- Rows with actions, with a finger on the first one. -/
def held (c : Collection Nat Unit) : ListControl Nat Unit :=
  beginPress (.new (.new ⟨0, c⟩ { mode := .multiple }) { hasAction := true }) 1 .touch {} .zero 0

section TwoRows

variable {c : Collection Nat Unit} (hc : Collection.ofForest SelectionModel.twoRows = .ok c)

include hc

theorem canSelect_one : (SelectionModel.new ⟨0, c⟩ { mode := .multiple }).canSelect 1 := by
  rw [SelectionModel.canSelect_new_iff hc]
  decide

theorem pressStart_held :
    pressStart (.new (.new ⟨0, c⟩ { mode := .multiple }) { hasAction := true }) 1 .touch {} .zero
      0 = (held c).answer .done :=
  pressStart_of_canSelect (canSelect_one hc) rfl

theorem model_held :
    (held c).model =
      { SelectionModel.new ⟨0, c⟩ { mode := .multiple } with
        focus := { key := some 1, inside := true } } :=
  if_pos (SelectionModel.contains_of_canSelect (canSelect_one hc))

/-- A list that toggles has no use for a long press. -/
theorem poll_held : ((held c).poll 600).result.handled = false := by
  rw [← Bool.not_eq_true, handled_poll_iff]
  rintro ⟨k, -, hallows⟩
  rw [allowsLongPress, model_held hc, Bool.and_eq_true] at hallows
  exact absurd hallows.2 nofun

theorem hasPrimaryAction_held : (held c).hasPrimaryAction 1 := by
  have hone : (held c).model.canSelect 1 := by
    rw [model_held hc]
    exact canSelect_one hc
  have hempty : (held c).model.isEmpty = true ∧ (held c).model.behavior = .toggle := by
    rw [model_held hc]
    exact ⟨rfl, rfl⟩
  have hactions : (held c).allowsActions 1 := by
    rw [allowsActions, SelectionModel.not_isDisabled_of_canSelect hone,
      SelectionModel.contains_of_canSelect hone]
    rfl
  rw [hasPrimaryAction, hactions, hempty.1, hempty.2]
  simp [held, beginPress, new]

/-- Without a poll, the press ends with the action of the row. -/
theorem heeds_held : (held c).Heeds (.pressUp (some 1) .zero 700) := by
  have hclick := finish_finger
  generalize hfinish : finger.finish (some 1) .zero 700 = finished at hclick
  obtain ⟨_, press⟩ := finished
  cases hclick
  refine (heeds_pressUp_iff hfinish rfl rfl (by decide)).2 (Or.inr (Or.inl ?_))
  rw [runsAction, hasPrimaryAction_held hc]
  rfl

end TwoRows

/-- A poll leaves no trace if the press is given up. -/
theorem poll_transparent_twoRows :
    ∃ c, Collection.ofForest SelectionModel.twoRows = .ok c ∧
      let l := (pressStart (.new (.new ⟨0, c⟩ { mode := .multiple }) { hasAction := true }) 1 .touch
        {} .zero 0).control
      (l.poll 600).result.handled = false ∧
        (l.poll 600).control.trace [.pressCancel, .poll 700] =
          l.trace [.pressCancel, .poll 700] := by
  obtain ⟨c, hc⟩ := Collection.exists_ofForest_ok_iff.2
    (show SelectionModel.twoRows.keys.Nodup by decide)
  refine ⟨c, hc, ?_⟩
  rw [pressStart_held hc]
  exact ⟨poll_held hc, (poll_transparent_iff (poll_held hc)).2 (Or.inr ⟨id, nofun⟩)⟩

/-- A poll that is answered as ignored swallows the click that the press ends in. -/
theorem poll_swallows_click :
    ∃ c, Collection.ofForest SelectionModel.twoRows = .ok c ∧
      let l := (pressStart (.new (.new ⟨0, c⟩ { mode := .multiple }) { hasAction := true }) 1 .touch
        {} .zero 0).control
      (l.poll 600).result.handled = false ∧
        (l.poll 600).control.trace [.pressUp (some 1) .zero 700] ≠
          l.trace [.pressUp (some 1) .zero 700] := by
  obtain ⟨c, hc⟩ := Collection.exists_ofForest_ok_iff.2
    (show SelectionModel.twoRows.keys.Nodup by decide)
  refine ⟨c, hc, ?_⟩
  rw [pressStart_held hc]
  have hmarked : ((held c).poll 600).control = (held c).marked := by
    rw [poll_of_unhandled _ (poll_held hc), show (held c).press = finger from rfl, poll_finger]
    rfl
  refine ⟨poll_held hc, fun hsame => ?_⟩
  have hunheeded := trace_marked_iff.1 (hmarked ▸ hsame)
  exact hunheeded.1 (heeds_held hc)

end ListControl

end Listbox
