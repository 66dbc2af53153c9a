import Listbox.Proofs.Destination
import Listbox.Proofs.LongPress
import Listbox.Proofs.Queries
import Listbox.Proofs.Selectability

set_option autoImplicit false

/-! # How the focus moves

`Leads` says of what becomes of a model which keys the focus can have gone to. There is one lemma for
every function that answers an input, and one input can follow another (`Leads.trans`).

Along with the focus goes a bound on what is stored (`Guarded`). What a gesture stores can be
selected, but for a range out of everything, and a range has the focus on its moving end: without an
owner, as long as no row has the focus, all that is stored can be selected. -/

universe u v

namespace Listbox

/-- Typed text leads to the focused key, or to one that it finds. -/
theorem Typeahead.focused_or_search?_of_input {K : Type u} {t : Typeahead} {n : Navigable K}
    {focused : Option K} {c : Char} {now : Nat} {k : K}
    (h : (t.input n focused c now).1 = .focus k) :
    focused = some k ∨ ∃ text, n.search? text focused = some k := by
  unfold input at h
  split at h
  · cases h
  · generalize (if t.isExpired now then t.reset else t) = t at h
    simp only at h
    split at h
    · cases h
    · split at h
      · next hfound =>
        cases h
        rcases Option.or_eq_some_iff.1 hfound with hsame | ⟨-, hsearch⟩
        · exact Or.inl (Option.filter_eq_some_iff.1 hsame).1
        · exact Or.inr ⟨_, hsearch⟩
      · split at h
        · next halone =>
          cases h
          split at halone
          · exact Or.inr ⟨_, halone⟩
          · cases halone
        · cases h

variable {K : Type u} {T : Type v} [DecidableEq K] [Hashable K]

namespace SelectionModel

variable {m m' m'' : SelectionModel K T} {g : Gesture K} {p : K → Prop} {k : K}

/-! ## Rows that may have the focus -/

theorem isDisabled_iff :
    m.isDisabled k = true ↔ m.config.disabledBehavior = .all ∧
      (m.disabledKeys.contains k = true ∨
        ∃ n ∈ m.collection.toList, n.key = k ∧ n.disabled = true) := by
  simp only [isDisabled, Bool.and_eq_true, beq_iff_eq, Bool.or_eq_true, Option.any_eq_true,
    Collection.get?_eq_some_iff, and_assoc]

theorem focusable_congr (h : SameRows m m') : m'.Focusable k ↔ m.Focusable k := by
  simp only [Focusable, h.isDisabled_eq, collection, h.edition]

/-! ## What becomes of the focus -/

/-- No owner holds the selection, and as long as no row has the focus, all that is stored can be
selected. -/
structure Guarded (m : SelectionModel K T) : Prop where
  free : m.controlled = false
  admits : m.focus.key = none → m.Admits m.selection

/-- The focus stays on its key or goes to one with `p`, and a guarded model stays guarded. -/
structure Leads (p : K → Prop) (m m' : SelectionModel K T) : Prop where
  focus : m'.focus.key = m.focus.key ∨ ∃ k, m'.focus.key = some k ∧ p k
  guarded : m.Guarded → m'.Guarded

namespace Leads

theorem of_focus {focus : Focus K}
    (h : focus.key = m.focus.key ∨ ∃ k, focus.key = some k ∧ p k) :
    Leads p m { m with focus } := by
  refine ⟨h, fun hm => ⟨hm.free, fun hnone => ?_⟩⟩
  rcases h with hkey | ⟨k, hkey, -⟩
  · exact hm.admits (hkey.symm.trans hnone)
  · change focus.key = none at hnone
    rw [hnone] at hkey
    cases hkey

theorem refl (m : SelectionModel K T) : Leads p m m := of_focus (Or.inl rfl)

theorem trans (h : Leads p m m') (h' : Leads p m' m'') : Leads p m m'' := by
  refine ⟨?_, fun hm => h'.guarded (h.guarded hm)⟩
  rcases h'.focus with hkey | hled
  · rw [hkey]
    exact h.focus
  · exact Or.inr hled

/-- If the focus can go nowhere, it stays. -/
theorem key_eq (h : Leads (fun _ => False) m m') : m'.focus.key = m.focus.key := by
  rcases h.focus with hkey | ⟨_, -, hfalse⟩
  · exact hkey
  · exact hfalse.elim

/-- A gesture leaves the focus alone. If it overreaches, some row must have the focus already. -/
theorem gesture (hg : m.Overreaches g → m.focus.key ≠ none) :
    Leads p m (m.gesture g).model := by
  have setting := sameSetting_gesture m g
  refine ⟨Or.inl (by rw [setting.focus]), fun hm => ?_⟩
  refine ⟨setting.controlled.trans hm.free, fun hnone => ?_⟩
  rw [setting.focus] at hnone
  rw [setting.admits]
  rcases gesture_cases m g with hstill | ⟨next, hnext, -⟩
  · rw [hstill]
    exact hm.admits hnone
  · rw [hnext.selection_gesture hm.free]
    exact hnext.admits fun hover => hg hover hnone

/-- Nothing but a range overreaches. -/
theorem gesture_of_ne_extend (hg : ∀ k, g ≠ .extend k) : Leads p m (m.gesture g).model :=
  gesture fun ⟨k, heq, _⟩ => absurd heq (hg k)

end Leads

theorem not_overreaches_of_isOn (hg : g.IsOn k) (hk : m.canSelect k) : ¬ m.Overreaches g := by
  rintro ⟨k', rfl, -, -, -, hcan⟩
  rcases hg with heq | heq | heq
  · cases heq
  · cases heq
  · cases heq
    exact hcan hk

theorem key_setFocusedKey {child : Option FocusStrategy} (hk : m.collection.contains k) :
    (m.setFocusedKey (some k) child).focus.key = some k := by
  unfold setFocusedKey
  rw [Option.all_some, if_pos hk]

theorem collection_setFocusedKey (m : SelectionModel K T) (k : Option K)
    (child : Option FocusStrategy) : (m.setFocusedKey k child).collection = m.collection := by
  obtain ⟨focus, hfocus⟩ := m.exists_setFocusedKey_eq k child
  rw [hfocus]
  rfl

theorem leads_setFocusedKey {child : Option FocusStrategy} (hk : m.focus.key = some k ∨ p k) :
    Leads p m (m.setFocusedKey (some k) child) := by
  unfold setFocusedKey
  split
  · exact .of_focus (hk.imp (fun hkey => hkey.symm) fun hpk => ⟨k, rfl, hpk⟩)
  · exact .refl m

/-! ## A new edition -/

theorem focusable_of_nearestFocusable? {index : Nat} (h : m.nearestFocusable? index = some k) :
    m.Focusable k := by
  obtain ⟨n, hn, rfl, hfocusable⟩ := exists_of_nearestFocusable? h
  obtain ⟨hitem, hdisabled⟩ := Bool.and_eq_true_iff.1 hfocusable
  rw [Bool.not_eq_true'] at hdisabled
  exact ⟨n, hn, rfl, hitem, hdisabled⟩

/-- The focus goes on to a row that may have it, if its own is gone. -/
theorem focusable_of_refocus {e : Edition K T} (hkey : (m.refocus e).key = some k)
    (hmoved : m.focus.key ≠ some k) : { m with edition := e }.Focusable k := by
  unfold refocus at hkey
  split at hkey
  · exact absurd hkey hmoved
  · split at hkey
    · exact absurd hkey hmoved
    · obtain ⟨n, -, hnearest⟩ := Option.bind_eq_some_iff.1 hkey
      exact focusable_of_nearestFocusable? hnearest

/-- **New editions.** The focus goes on to a row of the new edition that may have it. -/
theorem focusable_setEdition {e : Edition K T} (hkey : (m.setEdition e).model.focus.key = some k)
    (hmoved : m.focus.key ≠ some k) : (m.setEdition e).model.Focusable k := by
  unfold setEdition at hkey ⊢
  split
  · next hsame =>
    rw [if_pos hsame] at hkey
    exact absurd hkey hmoved
  · next hnew =>
    rw [if_neg hnew] at hkey
    have setting := sameSetting_prune { m with edition := e, focus := m.refocus e }
    rw [setting.focus] at hkey
    rw [focusable_congr ⟨setting.edition, setting.config, setting.disabledKeys⟩]
    exact focusable_of_refocus hkey hmoved

theorem Guarded.setEdition (h : m.Guarded) (e : Edition K T) : (m.setEdition e).model.Guarded := by
  unfold SelectionModel.setEdition
  split
  · exact h
  · have setting := sameSetting_prune { m with edition := e, focus := m.refocus e }
    refine ⟨setting.controlled.trans h.free, fun _ => ?_⟩
    rw [setting.admits]
    rcases prune_cases { m with edition := e, focus := m.refocus e } with
      ⟨hadmits, hstill⟩ | ⟨s, -, -, hadopt⟩
    · rw [hstill]
      exact hadmits
    · have hfree : m.controlled = false := h.free
      rw [hadopt, selection_adopt, hfree]
      exact admits_filter s

/-! ## Entering -/

/-- The selected item nearest to the side from which the focus comes. -/
def selectedEnd? (m : SelectionModel K T) : FocusEntry → Option K
  | .forward => m.firstSelected?
  | .backward => m.lastSelected?

theorem exists_of_selectedEnd? {entry : FocusEntry} (h : m.selectedEnd? entry = some k) :
    ∃ n ∈ m.collection.toList, n.key = k ∧ n.isItem = true ∧ m.isSelected k := by
  have hnode : ∃ n ∈ m.selectedNodes, n.key = k := by
    cases entry with
    | forward =>
      obtain ⟨n, hn, hkey⟩ := Option.map_eq_some_iff.1 h
      exact ⟨n, List.mem_of_head? hn, hkey⟩
    | backward =>
      obtain ⟨n, hn, hkey⟩ := Option.map_eq_some_iff.1 h
      exact ⟨n, List.mem_of_getLast? hn, hkey⟩
  obtain ⟨n, hn, rfl⟩ := hnode
  obtain ⟨hmem, hitem, hselected⟩ := mem_selectedNodes_iff.1 hn
  exact ⟨n, hmem, rfl, hitem, hselected⟩

theorem contains_of_selectedEnd? {entry : FocusEntry} (h : m.selectedEnd? entry = some k) :
    m.collection.contains k := by
  obtain ⟨n, hn, rfl, -⟩ := exists_of_selectedEnd? h
  exact Collection.contains_iff_mem_keys.2 (List.mem_map_of_mem hn)

/-- Nothing but being disabled keeps the focus from a selected item. -/
theorem focusable_iff_of_selectedEnd? {entry : FocusEntry} (h : m.selectedEnd? entry = some k) :
    m.Focusable k ↔ m.isDisabled k = false := by
  obtain ⟨n, hn, hkey, hitem, -⟩ := exists_of_selectedEnd? h
  constructor
  · rintro ⟨-, -, -, -, henabled⟩
    exact henabled
  · exact fun henabled => ⟨n, hn, hkey, hitem, henabled⟩

theorem not_isDisabled_of_selectedEnd? {entry : FocusEntry} (hm : m.Admits m.selection)
    (h : m.selectedEnd? entry = some k) : m.isDisabled k = false := by
  obtain ⟨-, -, -, -, hselected⟩ := exists_of_selectedEnd? h
  exact not_isDisabled_of_canSelect (canSelect_of_isSelected hm hselected)

end SelectionModel

namespace ListControl

open SelectionModel (Leads Guarded)

variable {l : ListControl K T} {e : Event K T} {p : K → Prop} {k : K}

/-! ## Inputs that leave the focus alone -/

/-- Selecting leaves the focus alone. A row that cannot be selected is toggled at most. -/
theorem leads_select {pointer : PointerType} {mods : Modifiers}
    (hk : l.allowsSelection k = true ∨ pointer = .keyboard ∧ mods.isCtrlLike l.config.platform) :
    Leads p l.model (l.select k pointer mods).control.model := by
  change Leads p l.model (l.selectWith k pointer mods).1.model
  by_cases hcommand : pointer = .keyboard ∧ mods.isCtrlLike l.config.platform
  · have htoggle : (l.selectWith k pointer mods).1 = l.model.gesture (.toggle k) := by
      rw [selectWith, if_pos hcommand]
      rfl
    rw [htoggle]
    exact .gesture_of_ne_extend nofun
  · have hallows := hk.resolve_right hcommand
    rw [allowsSelection, Bool.and_eq_true] at hallows
    rcases l.selectWith_cases k pointer mods with hstill | ⟨g, hg, hgesture⟩
    · rw [hstill]
      exact .refl l.model
    · rw [hgesture]
      exact .gesture fun hover =>
        absurd hover (SelectionModel.not_overreaches_of_isOn hg hallows.2)

theorem leads_escape (l : ListControl K T) : Leads p l.model l.escape.control.model := by
  unfold escape
  split
  · exact .refl l.model
  · change Leads p l.model (l.model.gesture .clear).model
    exact .gesture_of_ne_extend nofun

theorem leads_activateFocused (l : ListControl K T) (withEnter : Bool) (mods : Modifiers) :
    Leads p l.model (l.activateFocused withEnter mods).control.model := by
  unfold activateFocused
  split
  · exact .refl l.model
  · split
    · exact .refl l.model
    · split
      · exact .refl l.model
      · split
        · next hselects =>
          rw [Bool.or_eq_true] at hselects
          exact leads_select (hselects.imp_right fun h => ⟨rfl, h⟩)
        · exact .refl l.model

theorem leads_typeApart (l : ListControl K T) (c : Char) (mods : Modifiers) :
    Leads p l.model (l.typeApart c mods).control.model := by
  unfold typeApart
  split
  · exact l.leads_activateFocused false mods
  · exact .refl l.model

theorem leads_clicked (l : ListControl K T) (click : Click K) (context : PressContext) :
    Leads p l.model (l.clicked click context).control.model := by
  rcases l.clicked_cases click context with (h | h) | ⟨-, h⟩ | ⟨⟨hallows, -⟩, h⟩
  · rw [h]
    exact .refl l.model
  · rw [h]
    exact .refl l.model
  · rw [h]
    exact .refl l.model
  · rw [h]
    exact leads_select (Or.inl hallows)

theorem leads_pressUp (l : ListControl K T) (target : Option K) (point : Point) (now : Nat) :
    Leads p l.model (l.pressUp target point now).control.model := by
  rcases l.pressUp_cases target point now with h | ⟨click, context, -, -, h⟩
  · rw [h]
    exact .refl l.model
  · rw [h]
    exact (l.released target point now).leads_clicked click context

theorem leads_pressMove (l : ListControl K T) (point : Point) :
    Leads p l.model (l.pressMove point).2.model := by
  rcases l.pressMove_cases point with h | h
  · rw [h]
    exact .refl l.model
  · rw [h]
    exact .refl l.model

theorem leads_poll (l : ListControl K T) (now : Nat) :
    Leads p l.model (l.poll now).control.model := by
  rcases l.poll_cases now with h | ⟨k, ⟨-, hallows⟩, h⟩
  · rw [h]
    exact .refl l.model
  · have hselect : Leads p l.model (l.select k .touch l.pressModifiers).control.model :=
      leads_select (Or.inl (allowsSelection_of_allowsLongPress hallows))
    rw [h]
    exact ⟨hselect.focus, fun hm => ⟨(hselect.guarded hm).free, (hselect.guarded hm).admits⟩⟩

/-! ## Keys -/

/-- A move leads to a row that may have the focus, if it does not stay on its row. -/
theorem focused_or_focusable_of_moveTarget? {move : Move} {layout : Option (Layout K)}
    (h : l.moveTarget? move layout = some k) :
    (l.model.focus.key = some k ∧ l.model.collection.contains k) ∨ l.model.Focusable k := by
  unfold moveTarget? at h
  simp only at h
  split at h
  · next k' _ hkey =>
    rcases Navigator.offers_go? h with ⟨rfl, hcontains, -⟩ | hoffers
    · exact Or.inl ⟨hkey, hcontains⟩
    · exact Or.inr (offers_navigator_iff.1 hoffers)
  · exact Or.inr (offers_navigator_iff.1 (Navigator.offers_last? h))
  · exact Or.inr (offers_navigator_iff.1 (Navigator.offers_last? h))
  · exact Or.inr (offers_navigator_iff.1 (Navigator.offers_last? h))
  · exact Or.inr (offers_navigator_iff.1 (Navigator.offers_first? h))

theorem contains_of_moveTarget? {move : Move} {layout : Option (Layout K)}
    (h : l.moveTarget? move layout = some k) : l.model.collection.contains k := by
  rcases focused_or_focusable_of_moveTarget? h with ⟨-, hcontains⟩ | hfocusable
  · exact hcontains
  · exact hfocusable.contains

theorem leads_navigate (l : ListControl K T) (move : Move) (mods : Modifiers)
    (layout : Option (Layout K)) (shiftExtends : Bool) :
    Leads l.model.Focusable l.model (l.navigate move mods layout shiftExtends).control.model := by
  unfold navigate
  split
  · exact .refl l.model
  · next k htarget =>
    have hmoved : Leads l.model.Focusable l.model (l.model.setFocusedKey (some k) none) :=
      SelectionModel.leads_setFocusedKey
        ((focused_or_focusable_of_moveTarget? htarget).imp_left And.left)
    simp only
    split
    · refine hmoved.trans (.gesture (g := .extend k) ?_)
      -- the moving end of the range has the focus
      rintro ⟨k', heq, -, -, hcontains, -⟩
      cases heq
      rw [SelectionModel.collection_setFocusedKey] at hcontains
      rw [SelectionModel.key_setFocusedKey hcontains]
      exact Option.some_ne_none k
    · split
      · exact hmoved.trans (.gesture_of_ne_extend (g := .replace k) nofun)
      · exact hmoved

theorem leads_type (l : ListControl K T) (c : Char) (mods : Modifiers) (now : Nat) :
    Leads l.model.Focusable l.model (l.type c mods now).control.model := by
  unfold type
  split
  · exact l.leads_typeApart c mods
  · cases houtcome : l.typeahead.input (l.navigator none).navigable l.model.focus.key c now with
    | mk outcome typeahead =>
    cases outcome with
    | focus k =>
      refine SelectionModel.leads_setFocusedKey ?_
      have hfound := Typeahead.focused_or_search?_of_input (congrArg Prod.fst houtcome)
      refine hfound.imp_right fun ⟨text, hsearch⟩ => ?_
      exact offers_navigator_iff.1 (Navigator.offers_search? hsearch)
    | noMatch => exact .refl l.model
    | ignored => exact leads_typeApart { l with typeahead } c mods

/-- **Keys.** A key moves the focus to a row that may have it. -/
theorem leads_keyDown (l : ListControl K T) (stroke : KeyStroke) (mods : Modifiers)
    (layout : Option (Layout K)) (now : Nat) :
    Leads l.model.Focusable l.model (l.keyDown stroke mods layout now).control.model := by
  let shown : ListControl K T := { l with model := l.model.setFocusVisible true }
  have hshown : Leads l.model.Focusable l.model shown.model := .of_focus (Or.inl rfl)
  unfold keyDown
  simp only
  split
  · change Leads l.model.Focusable l.model (shown.model.gesture .selectAll).model
    exact hshown.trans (.gesture_of_ne_extend nofun)
  · refine hshown.trans ?_
    cases stroke with
    | arrowDown | arrowUp | arrowLeft | arrowRight | pageDown | pageUp | home | endKey =>
      exact shown.leads_navigate ..
    | escape => exact shown.leads_escape
    | enter => exact shown.leads_activateFocused ..
    | space | character => exact shown.leads_type ..
    | tab => exact .refl shown.model

/-! ## Presses -/

theorem key_beginPress {pointer : PointerType} {mods : Modifiers} {origin : Point} {now : Nat}
    (hk : l.Reaches k) : (l.beginPress k pointer mods origin now).model.focus.key = some k := by
  have hcontains : l.model.collection.contains k := hk.1
  exact SelectionModel.key_setFocusedKey hcontains

theorem leads_beginPress (l : ListControl K T) (k : K) (pointer : PointerType) (mods : Modifiers)
    (origin : Point) (now : Nat) :
    Leads (· = k) l.model (l.beginPress k pointer mods origin now).model := by
  have hinside : Leads (· = k) l.model
      ((l.model.setFocused true).setFocusVisible (pointer == .keyboard)) := .of_focus (Or.inl rfl)
  exact hinside.trans (SelectionModel.leads_setFocusedKey (Or.inr rfl))

/-- **Presses.** A press moves the focus to its row, whatever the row is, if it is in reach. -/
theorem key_pressStart {pointer : PointerType} {mods : Modifiers} {origin : Point} {now : Nat}
    (hk : l.Reaches k) :
    (l.pressStart k pointer mods origin now).control.model.focus.key = some k := by
  have hbegun : (l.beginPress k pointer mods origin now).model.focus.key = some k :=
    key_beginPress hk
  unfold pressStart
  rw [if_neg (Bool.eq_false_iff.1 (reaches_iff.1 hk))]
  simp only
  split
  · next hselects =>
    have hallows := (Bool.and_eq_true_iff.1 hselects).2
    rw [(leads_select (Or.inl hallows)).key_eq]
    exact hbegun
  · exact hbegun

theorem leads_pressStart (l : ListControl K T) (k : K) (pointer : PointerType) (mods : Modifiers)
    (origin : Point) (now : Nat) :
    Leads (· = k) l.model (l.pressStart k pointer mods origin now).control.model := by
  have hbegun := l.leads_beginPress k pointer mods origin now
  rcases l.pressStart_cases k pointer mods origin now with h | h | ⟨⟨-, -, -, hallows⟩, h⟩
  · rw [h]
    exact .refl l.model
  · rw [h]
    exact hbegun
  · rw [h]
    exact hbegun.trans (leads_select (Or.inl hallows))

/-- The end of a click leaves the focus where its beginning has put it. -/
theorem leads_click (l : ListControl K T) (k : K) (pointer : PointerType) (mods : Modifiers)
    (now : Nat) :
    Leads p (l.pressStart k pointer mods .zero now).control.model
      (l.click k pointer mods now).control.model := by
  unfold click
  simp only
  split
  · exact .refl _
  · exact leads_pressUp _ (some k) .zero now

/-! ## Entering -/

theorem entryTarget?_setFocused (l : ListControl K T) (entry : FocusEntry) :
    ({ l with model := l.model.setFocused true } : ListControl K T).entryTarget? entry =
      l.entryTarget? entry := rfl

/-- The focus enters on a selected row, or without one on a row that may have it. -/
theorem selectedEnd?_or_focusable_of_entryTarget? {entry : FocusEntry}
    (h : l.entryTarget? entry = some k) :
    l.model.selectedEnd? entry = some k ∨
      l.model.selectedEnd? entry = none ∧ l.model.Focusable k := by
  cases entry with
  | forward =>
    refine (Option.or_eq_some_iff.1 h).imp_right fun ⟨hnone, hfirst⟩ => ⟨hnone, ?_⟩
    exact offers_navigator_iff.1 (Navigator.offers_first? hfirst)
  | backward =>
    refine (Option.or_eq_some_iff.1 h).imp_right fun ⟨hnone, hlast⟩ => ⟨hnone, ?_⟩
    exact offers_navigator_iff.1 (Navigator.offers_last? hlast)

theorem entryTarget?_of_selectedEnd? {entry : FocusEntry}
    (h : l.model.selectedEnd? entry = some k) : l.entryTarget? entry = some k := by
  cases entry with
  | forward => exact Option.or_eq_some_iff.2 (Or.inl h)
  | backward => exact Option.or_eq_some_iff.2 (Or.inl h)

/-- **Entering.** The focus goes to the row for those who enter, if it was on none. -/
theorem leads_focusIn (l : ListControl K T) (entry : FocusEntry) :
    Leads (fun k => l.model.focus.key = none ∧ l.entryTarget? entry = some k) l.model
      (l.focusIn entry).model := by
  unfold focusIn
  simp only
  split
  · next k hnone htarget =>
    have hentered : Leads (fun k => l.model.focus.key = none ∧ l.entryTarget? entry = some k)
        l.model (l.model.setFocused true) := .of_focus (Or.inl rfl)
    have hmoved : Leads (fun k => l.model.focus.key = none ∧ l.entryTarget? entry = some k)
        l.model ((l.model.setFocused true).setFocusedKey (some k) none) :=
      hentered.trans (SelectionModel.leads_setFocusedKey (Or.inr ⟨hnone, htarget⟩))
    split
    · exact hmoved.trans (.gesture_of_ne_extend (g := .replace k) nofun)
    · exact hmoved
  · exact .of_focus (Or.inl rfl)

/-- In a list that toggles, entering selects nothing. -/
theorem exists_focusIn_eq (htoggle : l.model.behavior = .toggle) (entry : FocusEntry) :
    ∃ focus, l.focusIn entry = { l.model with focus }.still := by
  unfold focusIn
  simp only
  split
  · next k _ _ =>
    obtain ⟨focus, hfocus⟩ := (l.model.setFocused true).exists_setFocusedKey_eq (some k) none
    have hplain : ¬ (l.model.behavior = .replace ∧
        !({ l.model with focus } : SelectionModel K T).isSelected k) := by
      rw [htoggle]
      exact fun h => nomatch h.1
    rw [hfocus]
    exact ⟨focus, if_neg hplain⟩
  · exact ⟨_, rfl⟩

theorem key_focusIn {entry : FocusEntry} (hnone : l.model.focus.key = none)
    (h : l.entryTarget? entry = some k) (hk : l.model.collection.contains k) :
    (l.focusIn entry).model.focus.key = some k := by
  have hmoved : ((l.model.setFocused true).setFocusedKey (some k) none).focus.key = some k :=
    SelectionModel.key_setFocusedKey hk
  unfold focusIn
  simp only [hnone, entryTarget?_setFocused, h]
  split
  · change (SelectionModel.gesture _ (.replace k)).model.focus.key = some k
    rw [(SelectionModel.sameSetting_gesture _ _).focus]
    exact hmoved
  · exact hmoved

end ListControl

end Listbox
