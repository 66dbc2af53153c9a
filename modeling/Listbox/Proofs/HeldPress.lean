import Mathlib.Data.List.Induction
import Listbox.Proofs.Activation
import Listbox.Proofs.PressHistory

set_option autoImplicit false

/-! # A press and what is remembered of its start

A list control keeps two halves of one press in two places: the press itself, and the modifiers it
began with. An event leaves both halves alone, sets both or drops both (`Turns`), so along a run they
are there together or not at all. `context_goes_with_press` adds where they come from: the last press
start that was used, if the press has outlasted every event since (`HeldSince`). A press of which
nothing is remembered therefore never ends in a click. -/

universe u v

namespace Listbox

namespace PressTracker

variable {K : Type u}

/-- The press that is going on, as it began. -/
def begun? (t : PressTracker K) : Option (ActivePress K) :=
  t.active.map fun press => { press with longPressed := false }

theorem begun?_of_active (t : PressTracker K) (h : t.active = none) : t.begun? = none := by
  rw [begun?, h]
  rfl

theorem begun?_poll (t : PressTracker K) (now : Nat) : (t.poll now).2.begun? = t.begun? := by
  rcases t.poll_cases now with h | ⟨k, h⟩
  · rw [h]
  · rw [h, begun?, marked, Option.map_map]
    rfl

theorem active_finish [DecidableEq K] (t : PressTracker K) (target : Option K) (point : Point)
    (now : Nat) : (t.finish target point now).2.active = none := by
  rcases t.finish_cases target point now with h | ⟨press, hactive, htarget, hstrays⟩
  · rw [h]
    rfl
  · rw [finish_of_active hactive htarget hstrays]

end PressTracker

namespace ListControl

variable {K : Type u} {T : Type v} [DecidableEq K] [Hashable K]
variable {l l' start : ListControl K T} {e : Event K T} {events : List (Event K T)}
variable {press : ActivePress K} {context : PressContext}

/-- The event is a press start that is used: `press` begins with it, and `context` is what there is
to be remembered. -/
inductive Begins (l : ListControl K T) : Event K T → ActivePress K → PressContext → Prop where
  | pressStart {k : K} {pointer : PointerType} {mods : Modifiers} {origin : Point} {now : Nat}
      (h : (l.pressStart k pointer mods origin now).result.handled = true) :
      Begins l (.pressStart k pointer mods origin now)
        { key := k, pointer, origin, started := now, longPressed := false }
        { modifiers := mods, hadPrimaryAction := l.hasPrimaryAction k }

/-- The press began in the course of the events and has outlasted all that came after. -/
def HeldSince (start : ListControl K T) (events : List (Event K T)) (press : ActivePress K)
    (context : PressContext) : Prop :=
  ∃ before e after, events = before ++ e :: after ∧ (start.run before).Begins e press context ∧
    ((start.run before).handle e).control.Throughout (fun l e => l.pressOutlasts e = true) after

/-- The press ends in a click of which the start is forgotten. -/
def Loses (l : ListControl K T) (target : Option K) (point : Point) (now : Nat) : Prop :=
  (l.press.finish target point now).1.isSome = true ∧ l.pressContext = none

/-- The event ends a press in such a way, perhaps one that it has begun itself. -/
def LosesClick (l : ListControl K T) : Event K T → Prop
  | .pressUp target point now => l.Loses target point now
  | .click k pointer mods now =>
    (l.pressStart k pointer mods .zero now).result.handled = true ∧
      (l.pressStart k pointer mods .zero now).control.Loses (some k) .zero now
  | _ => False

/-! ## One event -/

/-- What an event can do to the two halves of a press. -/
inductive Turns (l : ListControl K T) (e : Event K T) (l' : ListControl K T) : Prop where
  | keeps (houtlasts : l.pressOutlasts e = true) (hpress : l'.press.begun? = l.press.begun?)
      (hcontext : l'.pressContext = l.pressContext)
  | begins (press : ActivePress K) (context : PressContext) (hbegins : l.Begins e press context)
      (hpress : l'.press.begun? = some press) (hcontext : l'.pressContext = some context)
  | ends (houtlasts : l.pressOutlasts e = false)
      (hbegins : ∀ press context, ¬ l.Begins e press context)
      (hpress : l'.press.begun? = none) (hcontext : l'.pressContext = none)

theorem Begins.not_pressOutlasts (h : l.Begins e press context) : l.pressOutlasts e = false := by
  cases h with
  | pressStart h => rw [pressOutlasts, h, Bool.not_true]

section PressStart

variable {k : K} {pointer : PointerType} {mods : Modifiers} {origin : Point} {now : Nat}

theorem pressStart_of_not_handled
    (h : (l.pressStart k pointer mods origin now).result.handled = false) :
    (l.pressStart k pointer mods origin now).control = l := by
  rcases l.pressStart_cases k pointer mods origin now with hstart | hstart | ⟨-, hstart⟩
  · rw [hstart]
    rfl
  · rw [hstart] at h
    cases h
  · rw [hstart] at h
    cases h

theorem pressStart_of_handled
    (h : (l.pressStart k pointer mods origin now).result.handled = true) :
    (l.pressStart k pointer mods origin now).control.press = l.press.start k pointer origin now ∧
      (l.pressStart k pointer mods origin now).control.pressContext =
        some { modifiers := mods, hadPrimaryAction := l.hasPrimaryAction k } := by
  rcases l.pressStart_cases k pointer mods origin now with hstart | hstart | ⟨-, hstart⟩
  · rw [hstart] at h
    cases h
  · rw [hstart]
    exact ⟨rfl, rfl⟩
  · rw [hstart]
    exact ⟨rfl, rfl⟩

end PressStart

theorem turns_pressStart (l : ListControl K T) (k : K) (pointer : PointerType) (mods : Modifiers)
    (origin : Point) (now : Nat) :
    l.Turns (.pressStart k pointer mods origin now)
      (l.pressStart k pointer mods origin now).control := by
  cases h : (l.pressStart k pointer mods origin now).result.handled with
  | true =>
    obtain ⟨hpress, hcontext⟩ := pressStart_of_handled h
    refine .begins _ _ (.pressStart h) ?_ hcontext
    rw [hpress]
    rfl
  | false =>
    have hcontrol := pressStart_of_not_handled h
    refine .keeps ?_ ?_ ?_
    · rw [pressOutlasts, h, Bool.not_false]
    · rw [hcontrol]
    · rw [hcontrol]

theorem begun?_pressUp (l : ListControl K T) (target : Option K) (point : Point) (now : Nat) :
    (l.pressUp target point now).control.press.begun? = none := by
  obtain ⟨model, h⟩ := l.exists_control_pressUp target point now
  rw [h]
  exact PressTracker.begun?_of_active _ (l.press.active_finish target point now)

/-- A click that is used begins a press and ends it. -/
theorem turns_click (l : ListControl K T) (k : K) (pointer : PointerType) (mods : Modifiers)
    (now : Nat) :
    l.Turns (.click k pointer mods now) (l.click k pointer mods now).control := by
  cases h : (l.pressStart k pointer mods .zero now).result.handled with
  | true =>
    have hclick : (l.click k pointer mods now).control =
        ((l.pressStart k pointer mods .zero now).control.pressUp (some k) .zero now).control := by
      simp only [click, h]
      rfl
    have hhandled : (l.click k pointer mods now).result.handled = true := by
      simp only [click, h]
      rfl
    refine .ends ?_ ?_ ?_ ?_
    · rw [pressOutlasts, hhandled, Bool.not_true]
    · rintro _ _ ⟨⟩
    · rw [hclick, begun?_pressUp]
    · rw [hclick, pressContext_pressUp]
  | false =>
    have hclick : l.click k pointer mods now = l.pressStart k pointer mods .zero now := by
      simp only [click, h]
      rfl
    have hcontrol := pressStart_of_not_handled h
    refine .keeps ?_ ?_ ?_
    · rw [pressOutlasts, hclick, h, Bool.not_false]
    · rw [hclick, hcontrol]
    · rw [hclick, hcontrol]

theorem turns_pressMove (l : ListControl K T) (point : Point) :
    l.Turns (.pressMove point) (l.pressMove point).2 := by
  rcases l.pressMove_eq_cases point with h | h
  · refine .ends ?_ ?_ ?_ ?_
    · rw [pressOutlasts, h, Bool.not_true]
    · rintro _ _ ⟨⟩
    · rw [h]
      rfl
    · rw [h]
      rfl
  · refine .keeps ?_ ?_ ?_
    · rw [pressOutlasts, h, Bool.not_false]
    · rw [h]
    · rw [h]

theorem turns_setEdition (l : ListControl K T) (e : Edition K T) :
    l.Turns (.setEdition e) (l.setEdition e).control := by
  cases h : l.press.pressedKey?.all e.collection.contains with
  | true =>
    rw [control_setEdition_of_all h]
    exact .keeps h rfl rfl
  | false =>
    rw [control_setEdition_of_not_all h]
    refine .ends h ?_ rfl rfl
    rintro _ _ ⟨⟩

/-- **Step.** What an event does to one half of a press it does to the other. -/
theorem turns_handle (l : ListControl K T) (e : Event K T) : l.Turns e (l.handle e).control := by
  cases e with
  | pressStart k pointer mods origin now => exact l.turns_pressStart k pointer mods origin now
  | pressMove point => exact l.turns_pressMove point
  | pressUp target point now =>
    refine .ends rfl ?_ (l.begun?_pressUp target point now) (pressContext_pressUp target point now)
    rintro _ _ ⟨⟩
  | pressCancel =>
    refine .ends rfl ?_ rfl rfl
    rintro _ _ ⟨⟩
  | click k pointer mods now => exact l.turns_click k pointer mods now
  | poll now =>
    obtain ⟨hpress, hcontext⟩ := l.press_poll now
    refine .keeps rfl ?_ hcontext
    exact (congrArg PressTracker.begun? hpress).trans (l.press.begun?_poll now)
  | keyDown stroke mods layout now =>
    have hpress := l.press_keyDown stroke mods layout now
    exact .keeps rfl (congrArg PressTracker.begun? hpress)
      (l.pressContext_keyDown stroke mods layout now)
  | setEdition e => exact l.turns_setEdition e
  | focusIn | focusOut | operation => exact .keeps rfl rfl rfl

/-! ## Together or not at all -/

/-- Something is remembered of a press exactly as long as it goes on. -/
def Paired (l : ListControl K T) : Prop :=
  l.pressContext.isSome = true ↔ l.press.isPressing = true

theorem paired_iff : l.Paired ↔ (l.pressContext.isSome = true ↔ l.press.begun?.isSome = true) := by
  rw [Paired, PressTracker.isPressing, PressTracker.begun?, Option.isSome_map]

theorem Turns.paired (h : l.Turns e l') (hl : l.Paired) : l'.Paired := by
  rw [paired_iff] at hl ⊢
  cases h with
  | keeps houtlasts hpress hcontext => rw [hpress, hcontext, hl]
  | begins press context hbegins hpress hcontext => simp [hpress, hcontext]
  | ends houtlasts hbegins hpress hcontext => simp [hpress, hcontext]

/-- **Runs.** The two halves stay together. -/
theorem Paired.run (hl : l.Paired) (events : List (Event K T)) : (l.run events).Paired := by
  induction events using List.reverseRecOn with
  | nil => exact hl
  | append_singleton events e ih =>
    rw [run_concat]
    exact (turns_handle _ e).paired ih

theorem Paired.not_loses (hl : l.Paired) (target : Option K) (point : Point) (now : Nat) :
    ¬ l.Loses target point now := by
  rintro ⟨hclick, hnone⟩
  obtain ⟨click, hclick⟩ := Option.isSome_iff_exists.1 hclick
  obtain ⟨press, hactive, -⟩ := PressTracker.exists_active_of_finish hclick
  have hpressing : l.press.isPressing = true := by
    rw [PressTracker.isPressing, hactive]
    rfl
  have hsome := hl.2 hpressing
  rw [hnone] at hsome
  cases hsome

theorem Paired.not_losesClick (hl : l.Paired) (e : Event K T) : ¬ l.LosesClick e := by
  intro h
  cases e with
  | pressUp target point now => exact hl.not_loses target point now h
  | click k pointer mods now =>
    have hbegun := (l.turns_pressStart k pointer mods .zero now).paired hl
    exact hbegun.not_loses (some k) .zero now h.2
  | _ => exact h

/-! ## Where they come from -/

theorem run_append_cons (l : ListControl K T) (before : List (Event K T)) (e : Event K T)
    (after : List (Event K T)) :
    l.run (before ++ e :: after) = ((l.run before).handle e).control.run after := by
  rw [run, List.foldl_append]
  rfl

theorem not_heldSince_nil : ¬ start.HeldSince [] press context := by
  rintro ⟨before, e, after, hevents, -⟩
  simp at hevents

/-- A press is held after one more event if it begins with that event, or outlasts it. -/
theorem heldSince_concat_iff :
    start.HeldSince (events ++ [e]) press context ↔
      (start.run events).Begins e press context ∨
        start.HeldSince events press context ∧ (start.run events).pressOutlasts e = true := by
  constructor
  · rintro ⟨before, e', after, hevents, hbegins, houtlasts⟩
    rcases concat_eq_append_cons_iff.1 hevents with ⟨-, rfl, rfl⟩ | ⟨after', rfl, rfl⟩
    · exact Or.inl hbegins
    · rw [throughout_concat_iff, ← run_append_cons] at houtlasts
      exact Or.inr ⟨⟨before, e', after', rfl, hbegins, houtlasts.1⟩, houtlasts.2⟩
  · rintro (hbegins | ⟨⟨before, e', after, rfl, hbegins, houtlasts⟩, he⟩)
    · exact ⟨events, e, [], rfl, hbegins, trivial⟩
    · refine ⟨before, e', after ++ [e], by simp, hbegins, ?_⟩
      rw [throughout_concat_iff, ← run_append_cons]
      exact ⟨houtlasts, he⟩

/-- **Step.** The halves of a press are there after an event if they begin with it, or were there and
the press outlasts it. -/
theorem Turns.held_iff (h : l.Turns e l') :
    l'.press.begun? = some press ∧ l'.pressContext = some context ↔
      l.Begins e press context ∨
        (l.press.begun? = some press ∧ l.pressContext = some context) ∧
          l.pressOutlasts e = true := by
  cases h with
  | keeps houtlasts hpress hcontext =>
    have hbegins : ¬ l.Begins e press context := by
      intro hbegins
      rw [hbegins.not_pressOutlasts] at houtlasts
      cases houtlasts
    rw [hpress, hcontext, or_iff_right hbegins, and_iff_left houtlasts]
  | begins press' context' hbegins hpress hcontext =>
    have houtlasts : ¬ l.pressOutlasts e = true := by
      rw [hbegins.not_pressOutlasts]
      exact Bool.false_ne_true
    rw [or_iff_left fun h => houtlasts h.2, hpress, hcontext]
    constructor
    · rintro ⟨⟨⟩, ⟨⟩⟩
      exact hbegins
    · intro hbegins'
      -- a press start begins one press
      cases hbegins
      cases hbegins'
      exact ⟨rfl, rfl⟩
  | ends houtlasts hbegins hpress hcontext =>
    rw [hpress, or_iff_right (hbegins press context), houtlasts]
    simp

/-- **Runs.** The halves are those of the press that has been held since it began. -/
theorem held_run_iff (hstart : start.press.begun? = none) (events : List (Event K T)) :
    (start.run events).press.begun? = some press ∧
        (start.run events).pressContext = some context ↔
      start.HeldSince events press context := by
  induction events using List.reverseRecOn with
  | nil =>
    refine iff_of_false ?_ not_heldSince_nil
    rintro ⟨hpress, -⟩
    rw [run, List.foldl_nil, hstart] at hpress
    cases hpress
  | append_singleton events e ih =>
    rw [run_concat, (turns_handle _ e).held_iff, ih, heldSince_concat_iff]

/-- With another edition a press goes on if its key is there. -/
theorem pressedKey?_setEdition_eq_some_iff (l : ListControl K T) (e : Edition K T) (k : K) :
    (l.setEdition e).control.press.pressedKey? = some k ↔
      l.press.pressedKey? = some k ∧ e.collection.contains k = true := by
  cases h : l.press.pressedKey?.all e.collection.contains with
  | true =>
    rw [control_setEdition_of_all h]
    refine (and_iff_left_of_imp fun hk => ?_).symm
    rw [hk] at h
    exact h
  | false =>
    have hcancelled : (l.setEdition e).control.press.pressedKey? = none := by
      rw [control_setEdition_of_not_all h]
      rfl
    rw [hcancelled]
    constructor
    · intro hk
      cases hk
    · rintro ⟨hk, hcontains⟩
      rw [hk, Option.all_some, hcontains] at h
      cases h

/-- **Held presses.** After any run from the start, something is remembered of a press exactly as long
as it goes on; and what is remembered of which press is what there was to remember when that press
began, by the last press start that was used. So no event ends a press in a click of which the start
is forgotten. Another edition leaves the press going on exactly if it has its key. -/
theorem context_goes_with_press (model : SelectionModel K T) (config : InteractionConfig)
    (events : List (Event K T)) :
    let start := ListControl.new model config
    let l := start.run events
    (l.pressContext.isSome = true ↔ l.press.isPressing = true) ∧
    (∀ press context,
      l.press.begun? = some press ∧ l.pressContext = some context ↔
        start.HeldSince events press context) ∧
    (∀ e, ¬ l.LosesClick e) ∧
    ∀ e k, (l.setEdition e).control.press.pressedKey? = some k ↔
      l.press.pressedKey? = some k ∧ e.collection.contains k = true := by
  intro start l
  have hstart : start.Paired := iff_of_false Bool.false_ne_true Bool.false_ne_true
  have hpaired : l.Paired := hstart.run events
  refine ⟨hpaired, ?_, hpaired.not_losesClick, l.pressedKey?_setEdition_eq_some_iff⟩
  intro press context
  exact held_run_iff rfl events

end ListControl

end Listbox
