import Listbox.Proofs.Activation
import Listbox.Proofs.FocusMoves
import Listbox.Proofs.ObedientOwner

set_option autoImplicit false

/-! # Where a range begins

A range without an anchor begins at the focused row. With the shift key held, arrow keys, page keys
and the mouse take the focus to a row and the range after it, in this order: by the time the range
asks for its beginning, the row has the focus that it goes to. So it is that row alone, and what was
between the two rows stays selected only if it was selected before. -/

universe u v

namespace Listbox

variable {K : Type u} {T : Type v} [DecidableEq K] [Hashable K]

/-- The move that an arrow key or a page key stands for. -/
def KeyStroke.arrow? : KeyStroke → Option Move
  | .arrowDown => some .below
  | .arrowUp => some .above
  | .arrowLeft => some .leftOf
  | .arrowRight => some .rightOf
  | .pageDown => some .pageBelow
  | .pageUp => some .pageAbove
  | _ => none

/-! ## Ranges to the focused row -/

namespace SelectionModel

variable {m : SelectionModel K T} {s : KeySet K} {k t x : K}

theorem isBetween_self_iff (hk : m.collection.contains k) : m.isBetween k k x ↔ x = k := by
  constructor
  · intro h
    unfold isBetween at h
    cases hi : m.collection.position? k with
    | none => simp [hi] at h
    | some i =>
      cases hj : m.collection.position? x with
      | none => simp [hi, hj] at h
      | some j =>
        simp only [hi, hj, Bool.and_eq_true, decide_eq_true_eq] at h
        have hsame : j = i := by omega
        rw [Collection.position?_eq_some_iff] at hi hj
        rw [hsame, hi] at hj
        exact (Option.some.inj hj).symm
  · rintro rfl
    exact isBetween_left hk hk

/-- A range that begins at `t` keeps the row: it is one of the live keys and not in the range that
went from `t` until now. -/
def Retains (m : SelectionModel K T) (t x : K) : Prop :=
  x ∈ m.liveKeys.items ∧ ∀ last, m.liveKeys.current = some last → ¬ m.isBetween t last x

/-- Without an anchor, a range to the focused row adds the row to what is retained. -/
theorem isSelected_extend_focused_iff (hfree : m.controlled = false) (hmode : m.mode = .multiple)
    (hs : m.selection = .keys s) (hanchor : s.anchor = none) (hk : m.collection.contains k)
    (hfocus : m.focus.key = some k) :
    (m.gesture (.extend k)).model.isSelected x ↔ m.Retains k x ∨ m.canSelect x ∧ x = k := by
  have hall : m.selection ≠ .all := by
    rw [hs]
    nofun
  have hlive : m.liveKeys.anchor = none := by
    rw [liveKeys_of_keys hs, KeySet.anchor_filter, hanchor]
    rfl
  have hstart : m.rangeStart m.liveKeys k = k := rangeStart_of_focus hlive hfocus hk
  have hstored : (m.gesture (.extend k)).model.selection = .keys (m.stretched k) :=
    (Proposes.stretch k hmode hk hall).selection_gesture hfree
  have setting := sameSetting_gesture m (.extend k)
  have hallows : (m.gesture (.extend k)).model.mode.Allows (m.gesture (.extend k)).model.selection := by
    rw [setting.mode, hmode]
    trivial
  have hcontains : x ∈ (m.stretched k).items → m.collection.contains x :=
    fun hx => contains_of_canSelect (canSelect_of_mem_stretched hx)
  rw [isSelected_iff hallows, hstored, Covers, setting.collection, and_iff_left_of_imp hcontains,
    mem_stretched_iff, hstart, isBetween_self_iff hk]
  exact Iff.rfl

end SelectionModel

namespace ListControl

variable {l : ListControl K T} {e : Event K T} {s : KeySet K} {t : K}

/-! ## Ranges made by inputs -/

/-- The event is made with the shift key and takes the focus and the range to the row: an arrow key
or a page key that leads there, or a press with the mouse that selects the row at once. -/
inductive Stretches (l : ListControl K T) : Event K T → K → Prop where
  | key {stroke : KeyStroke} {move : Move} {mods : Modifiers} {layout : Option (Layout K)}
      {now : Nat} {t : K} (hstroke : stroke.arrow? = some move) (hshift : mods.shift = true)
      (htarget : l.moveTarget? move layout = some t) :
      Stretches l (.keyDown stroke mods layout now) t
  | press {mods : Modifiers} {origin : Point} {now : Nat} {t : K} (hshift : mods.shift = true)
      (hallows : l.allowsSelection t = true) (hprimary : l.hasPrimaryAction t = false)
      (hwaits : l.config.selectOnPressUp = false)
      (hlink : l.model.isLink t = true → l.model.config.linkBehavior ≠ .none) :
      Stretches l (.pressStart t .mouse mods origin now) t

theorem moveTarget?_of_focused {move : Move} {layout : Option (Layout K)}
    (h : l.model.focus.key = some t) :
    l.moveTarget? move layout = (l.navigator layout).go? t move := by
  unfold moveTarget?
  simp only [h]

theorem keyDown_of_arrow? {stroke : KeyStroke} {move : Move} {mods : Modifiers}
    {layout : Option (Layout K)} {now : Nat} (h : stroke.arrow? = some move) :
    l.keyDown stroke mods layout now =
      ListControl.navigate { l with model := l.model.setFocusVisible true } move mods layout true := by
  cases stroke with
  | arrowDown | arrowUp | arrowLeft | arrowRight | pageDown | pageUp =>
    cases h
    rfl
  | _ => cases h

theorem model_navigate_of_moveTarget? {move : Move} {mods : Modifiers} {layout : Option (Layout K)}
    (hmode : l.model.mode = .multiple) (hshift : mods.shift = true)
    (h : l.moveTarget? move layout = some t) :
    (l.navigate move mods layout true).control.model =
      ((l.model.setFocusedKey (some t) none).gesture (.extend t)).model := by
  have hmoved : (l.model.setFocusedKey (some t) none).mode = .multiple := by
    obtain ⟨focus, hfocus⟩ := l.model.exists_setFocusedKey_eq (some t) none
    rw [hfocus]
    exact hmode
  unfold navigate
  simp only [h, hshift, hmoved, and_self, if_true]
  rfl

theorem selectWith_of_shift {mods : Modifiers} (hmode : l.model.mode = .multiple)
    (hshift : mods.shift = true) (hcan : l.model.canSelect t)
    (hlink : l.model.isLink t = true → l.model.config.linkBehavior ≠ .none) :
    (l.selectWith t .mouse mods).1 = l.model.gesture (.extend t) := by
  have hrow : l.selectRow t .mouse mods = l.model.gesture (.extend t) := by
    unfold selectRow
    simp only [hmode, hshift, if_true]
    rfl
  unfold selectWith
  rw [if_neg (by simp), if_neg (by simp [hmode])]
  split
  · next his =>
    split
    · exact hrow
    · exact hrow
    · next hoverride => exact absurd hoverride (linkBehavior_ne_override hcan his)
    · next hnone => exact absurd hnone (hlink his)
  · exact hrow

/-- **Order.** The focus is on the row by the time that the range is made. -/
theorem Stretches.exists_gesture (h : l.Stretches e t) (hmode : l.model.mode = .multiple) :
    l.model.collection.contains t ∧ ∃ focus, focus.key = some t ∧
      (l.handle e).control.model = ({ l.model with focus }.gesture (.extend t)).model := by
  cases h with
  | @key stroke move mods layout now _ hstroke hshift htarget =>
    let shown : ListControl K T := { l with model := l.model.setFocusVisible true }
    have hcontains := contains_of_moveTarget? htarget
    refine ⟨hcontains, ?_⟩
    obtain ⟨focus, hfocus⟩ := shown.model.exists_setFocusedKey_eq (some t) none
    have hkey : (shown.model.setFocusedKey (some t) none).focus.key = some t :=
      SelectionModel.key_setFocusedKey hcontains
    rw [hfocus] at hkey
    refine ⟨focus, hkey, ?_⟩
    change (l.keyDown stroke mods layout now).control.model = _
    rw [keyDown_of_arrow? hstroke]
    have htarget' : shown.moveTarget? move layout = some t := htarget
    rw [model_navigate_of_moveTarget? (l := shown) hmode hshift htarget', hfocus]
    rfl
  | @press mods origin now _ hshift hallows hprimary hwaits hlink =>
    have hreaches := reaches_of_allowsSelection hallows
    obtain ⟨focus, hfocus⟩ := (l.refocused_beginPress t .mouse mods origin now).model
    have hkey : (l.beginPress t .mouse mods origin now).model.focus.key = some t :=
      key_beginPress hreaches
    rw [hfocus] at hkey
    refine ⟨hreaches.1, focus, hkey, ?_⟩
    change (l.pressStart t .mouse mods origin now).control.model = _
    rw [pressStart_of_selectsAtOnce ⟨rfl, hprimary, hwaits, hallows⟩]
    rw [allowsSelection, Bool.and_eq_true] at hallows
    let begun := l.beginPress t .mouse mods origin now
    have hrange : (begun.selectWith t .mouse mods).1 = begun.model.gesture (.extend t) := by
      apply selectWith_of_shift
      · rw [hfocus]
        exact hmode
      · exact hshift
      · rw [hfocus]
        exact hallows.2
      · rw [hfocus]
        exact hlink
    change (begun.selectWith t .mouse mods).1.model = _
    rw [hrange, hfocus]

theorem Stretches.key_eq (h : l.Stretches e t) (hmode : l.model.mode = .multiple) :
    (l.handle e).control.model.focus.key = some t := by
  obtain ⟨-, focus, hkey, hafter⟩ := h.exists_gesture hmode
  rw [hafter, (SelectionModel.sameSetting_gesture _ _).focus]
  exact hkey

/-- The row is selected, and nothing else is that was not. -/
theorem Stretches.isSelected_iff (h : l.Stretches e t) (hfree : l.model.controlled = false)
    (hmode : l.model.mode = .multiple) (hs : l.model.selection = .keys s) (hanchor : s.anchor = none)
    (x : K) :
    (l.handle e).control.model.isSelected x ↔
      l.model.Retains t x ∨ l.model.canSelect x ∧ x = t := by
  obtain ⟨hcontains, focus, hkey, hafter⟩ := h.exists_gesture hmode
  rw [hafter]
  exact SelectionModel.isSelected_extend_focused_iff hfree hmode hs hanchor hcontains hkey

/-- **Fallback.** A range without an anchor adds the row that it goes to, and nothing else. So the
rows from the one that had the focus on are all selected exactly if those before the last one were
already, and are retained. -/
theorem fallback_iff (hfree : l.model.controlled = false) (hmode : l.model.mode = .multiple)
    (hs : l.model.selection = .keys s) (hanchor : s.anchor = none) (h : l.Stretches e t) :
    let m := l.model
    let after := (l.handle e).control.model
    after.focus.key = some t ∧
      (∀ x, after.isSelected x ↔ m.Retains t x ∨ m.canSelect x ∧ x = t) ∧
      ∀ f, m.focus.key = some f →
        ((∀ x, m.canSelect x → m.isBetween f t x → after.isSelected x) ↔
          ∀ x, m.canSelect x → m.isBetween f t x → x ≠ t → m.Retains t x) := by
  intro m after
  have hselected : ∀ x, after.isSelected x ↔ m.Retains t x ∨ m.canSelect x ∧ x = t :=
    h.isSelected_iff hfree hmode hs hanchor
  refine ⟨h.key_eq hmode, hselected, fun f _ => ?_⟩
  constructor
  · intro hall x hcan hbetween hne
    rcases (hselected x).1 (hall x hcan hbetween) with hretains | ⟨-, heq⟩
    · exact hretains
    · exact absurd heq hne
  · intro hall x hcan hbetween
    rw [hselected]
    by_cases heq : x = t
    · exact Or.inr ⟨hcan, heq⟩
    · exact Or.inl (hall x hcan hbetween heq)

/-! ## Three rows -/

section OpenRows

open SelectionModel (openRows)

variable {c : Collection Nat Unit} (hc : Collection.ofForest openRows = .ok c)
variable {l : ListControl Nat Unit} {layout : Option (Layout Nat)}

/-- The rows in a list where many may be selected. -/
def openModel (c : Collection Nat Unit) : SelectionModel Nat Unit :=
  .new ⟨0, c⟩ { mode := .multiple }

theorem isFocusable_navigator (hrows : (openModel c).SameRows l.model) :
    (l.navigator layout).isFocusable = fun n => n.isItem && !n.disabled := by
  have hkeys : (l.navigator layout).disabledKeys = Std.HashSet.ofList [] := hrows.disabledKeys
  have hbehavior : (l.navigator layout).disabledBehavior = .all := by
    change l.model.config.disabledBehavior = .all
    rw [hrows.config]
    rfl
  funext n
  simp [Navigator.isFocusable, Navigator.isDisabled, hkeys, hbehavior]

theorem collection_navigator (hrows : (openModel c).SameRows l.model) :
    (l.navigator layout).collection = c := by
  change l.model.edition.collection = c
  rw [hrows.edition]
  rfl

include hc

theorem first?_openRows (hrows : (openModel c).SameRows l.model) :
    (l.navigator layout).first? = some 1 := by
  rw [Navigator.first?, collection_navigator hrows, Collection.findFrom?_eq_find?,
    isFocusable_navigator hrows, Collection.toList_ofForest hc]
  decide

theorem below?_openRows (hrows : (openModel c).SameRows l.model) (hconfig : l.config = {}) :
    (l.navigator layout).below? 1 = some 2 := by
  have hcollection : (l.navigator layout).collection = c := collection_navigator hrows
  have hposition : c.position? 1 = some 0 := (Collection.position?_ofForest hc).2 rfl
  have hcontains : c.contains 1 := by
    rw [Collection.contains_iff_mem_keys, Collection.keys_ofForest hc]
    decide
  have hnavigation : (l.navigator layout).config = {} := congrArg (·.navigation) hconfig
  have hstep : (l.navigator layout).vertical? true 1 = some 2 := by
    unfold Navigator.vertical?
    rw [hnavigation]
    change (l.navigator layout).seek? (fun _ => true) true 1 = some 2
    unfold Navigator.seek?
    rw [hcollection, hposition]
    simp only [Option.bind_some, if_true, Collection.findFrom?_eq_find?,
      isFocusable_navigator hrows, Collection.toList_ofForest hc]
    decide
  rw [Navigator.below?, Navigator.upDown?, hcollection, if_pos hcontains, hstep]
  rfl

end OpenRows

/-- The focus has entered on the first row. -/
theorem exists_entered {m : SelectionModel Nat Unit} (htoggle : m.behavior = .toggle) (hnone : m.focus.key = none)
    (hcontains : m.collection.contains 1)
    (htarget : (ListControl.new m {}).entryTarget? .forward = some 1) :
    ∃ focus, focus.key = some 1 ∧
      (ListControl.new m {}).run [.focusIn .forward] = ListControl.new { m with focus } {} := by
  obtain ⟨focus, hentered⟩ := exists_focusIn_eq (l := ListControl.new m {}) htoggle .forward
  have hkey := key_focusIn (l := ListControl.new m {}) hnone htarget hcontains
  rw [hentered] at hkey
  refine ⟨focus, hkey, ?_⟩
  change ((ListControl.new m {}).update ((ListControl.new m {}).focusIn .forward) _).control = _
  rw [hentered]
  rfl

/-- The rows, the first of them selected without having been made the end of a range. -/
def firstChosen (c : Collection Nat Unit) : SelectionModel Nat Unit :=
  (openModel c).withSelection (.keys (.ofList [1]))

section FirstChosen

open SelectionModel (openRows)

variable {c : Collection Nat Unit} (hc : Collection.ofForest openRows = .ok c)

theorem selection_firstChosen (c : Collection Nat Unit) :
    (firstChosen c).selection = .keys ((KeySet.ofList [1]).filter (openModel c).canSelect) := rfl

include hc

theorem canSelect_firstChosen {k : Nat} (hk : k ∈ [1, 2, 3]) : (firstChosen c).canSelect k :=
  SelectionModel.canSelect_openRows hc false hk

theorem entryTarget?_firstChosen :
    (ListControl.new (firstChosen c) {}).entryTarget? .forward = some 1 := by
  have hitem : ∃ n ∈ c.toList, n.key = 1 ∧ n.isItem = true := by
    rw [Collection.toList_ofForest hc]
    decide
  obtain ⟨n, hn, hkey, hitem⟩ := hitem
  have hone : (openModel c).canSelect 1 := canSelect_firstChosen hc (by decide)
  have hallows : (firstChosen c).mode.Allows (firstChosen c).selection := trivial
  refine entryTarget?_of_selectedEnd? ?_
  rw [← hkey]
  refine SelectionModel.firstSelected?_of_only hallows hn hitem fun x => ?_
  rw [hkey]
  exact SelectionModel.mem_selectedKeys_of_filter (selection_firstChosen c) hone
    (SelectionModel.contains_of_canSelect hone)

/-- Without actions and links, a press with the mouse selects its row. -/
theorem stretches_firstChosen (focus : Focus Nat) :
    (ListControl.new { firstChosen c with focus } {}).Stretches
      (.pressStart 2 .mouse { shift := true } .zero 0) 2 := by
  have hcan : (firstChosen c).canSelect 2 := canSelect_firstChosen hc (by decide)
  have hallows : (ListControl.new { firstChosen c with focus } {}).allowsSelection 2 = true :=
    allowsSelection_of_canSelect hcan
  have hlink : ¬ (firstChosen c).isLink 2 := by
    rw [SelectionModel.isLink_iff]
    change ¬ ∃ n ∈ c.toList, n.key = 2 ∧ n.isLink = true
    rw [Collection.toList_ofForest hc]
    decide
  have hprimary : (ListControl.new { firstChosen c with focus } {}).hasPrimaryAction 2 = false := by
    rw [← Bool.not_eq_true]
    intro h
    rcases (allowsActions_iff.1 (allowsActions_of_hasPrimaryAction h)).2 with haction | hfollows
    · cases haction
    · exact hlink (followsLink_iff.1 hfollows).1
  exact .press rfl hallows hprimary rfl fun h => absurd h hlink

/-- Of the rows from the first to the second, the first is retained. -/
theorem retains_firstChosen {x : Nat} (hcan : (firstChosen c).canSelect x)
    (hbetween : (firstChosen c).isBetween 1 2 x) (hx : x ≠ 2) : (firstChosen c).Retains 2 x := by
  have hone : (openModel c).canSelect 1 := canSelect_firstChosen hc (by decide)
  have hrow : x ∈ [1, 2, 3] := by
    have hkeys := Collection.contains_iff_mem_keys.1 (SelectionModel.contains_of_canSelect hcan)
    change x ∈ c.keys at hkeys
    rw [Collection.keys_ofForest hc] at hkeys
    exact hkeys
  have hlast : x ≠ 3 := by
    rintro rfl
    have hinside := (SelectionModel.isBetween_iff_of_ofForest (m := firstChosen c)
      (i := 0) (j := 1) (n := 2) hc rfl rfl rfl).1 hbetween
    omega
  have hfirst : x = 1 := by
    simp only [List.mem_cons, List.not_mem_nil, or_false] at hrow
    omega
  rw [hfirst, SelectionModel.Retains, SelectionModel.liveKeys_of_keys (selection_firstChosen c)]
  refine ⟨?_, nofun⟩
  simp only [KeySet.items_filter, List.mem_filter, KeySet.mem_items_ofList, List.mem_singleton]
  exact ⟨⟨trivial, hone⟩, hone⟩

end FirstChosen

/-- The first row stays selected when a press takes the range to the second. -/
theorem fallback_openRows :
    ∃ c, Collection.ofForest SelectionModel.openRows = .ok c ∧
      let l := (ListControl.new (firstChosen c) {}).run [.focusIn .forward]
      let e := Event.pressStart 2 .mouse { shift := true } .zero 0
      l.model.controlled = false ∧ l.model.mode = .multiple ∧
        (∃ s, l.model.selection = .keys s ∧ s.anchor = none) ∧ l.Stretches e 2 ∧
        l.model.focus.key = some 1 ∧
        ∀ x, l.model.canSelect x → l.model.isBetween 1 2 x →
          (l.handle e).control.model.isSelected x := by
  obtain ⟨c, hc⟩ := Collection.exists_ofForest_ok_iff.2
    (show SelectionModel.openRows.keys.Nodup by decide)
  refine ⟨c, hc, ?_⟩
  intro l e
  have hcontains := SelectionModel.contains_of_canSelect (canSelect_firstChosen hc (k := 1) (by decide))
  obtain ⟨focus, hkey, hl⟩ := exists_entered rfl rfl hcontains (entryTarget?_firstChosen hc)
  have hl : l = ListControl.new { firstChosen c with focus } {} := hl
  have hstretches := stretches_firstChosen hc focus
  rw [hl]
  refine ⟨rfl, rfl, ⟨_, selection_firstChosen c, rfl⟩, hstretches, hkey, ?_⟩
  obtain ⟨-, -, hfallback⟩ := fallback_iff rfl rfl (selection_firstChosen c) rfl hstretches
  exact (hfallback 1 hkey).2 fun x hcan hbetween hx => retains_firstChosen hc hcan hbetween hx

/-- The focus enters on the first row, and a range to the second leaves the first out. -/
theorem range_leaves_start :
    ∃ c, Collection.ofForest SelectionModel.openRows = .ok c ∧
      let l := (ListControl.new (openModel c) {}).run [.focusIn .forward]
      let after := (l.handle (.keyDown .arrowDown { shift := true } none 0)).control.model
      l.model.controlled = false ∧ l.model.mode = .multiple ∧
        (∃ s, l.model.selection = .keys s ∧ s.anchor = none) ∧
        l.model.focus.key = some 1 ∧ after.focus.key = some 2 ∧
        l.model.canSelect 1 ∧ l.model.isBetween 1 2 1 ∧ ¬ after.isSelected 1 := by
  obtain ⟨c, hc⟩ := Collection.exists_ofForest_ok_iff.2
    (show SelectionModel.openRows.keys.Nodup by decide)
  refine ⟨c, hc, ?_⟩
  intro l after
  have hone : (openModel c).canSelect 1 := SelectionModel.canSelect_openRows hc false (by decide)
  have htwo : (openModel c).canSelect 2 := SelectionModel.canSelect_openRows hc false (by decide)
  have hfirst := SelectionModel.contains_of_canSelect hone
  have hsecond := SelectionModel.contains_of_canSelect htwo
  have htarget : (ListControl.new (openModel c) {}).entryTarget? .forward = some 1 := by
    refine Option.or_eq_some_iff.2 (Or.inr ⟨?_, first?_openRows hc ⟨rfl, rfl, rfl⟩⟩)
    have hnone : ∀ n, ¬ (openModel c).SelectsItem n := fun n h => nomatch h.2.2
    exact (SelectionModel.concordant_of_allows (m := openModel c) trivial).noFirst.2 hnone
  obtain ⟨focus, hkey, hl⟩ := exists_entered rfl rfl hfirst htarget
  have hl : l = ListControl.new { openModel c with focus } {} := hl
  have hstretches : l.Stretches (.keyDown .arrowDown { shift := true } none 0) 2 := by
    refine .key (show KeyStroke.arrow? .arrowDown = some .below from rfl) rfl ?_
    rw [hl, moveTarget?_of_focused hkey]
    exact below?_openRows hc ⟨rfl, rfl, rfl⟩ rfl
  have hmode : l.model.mode = .multiple := by
    rw [hl]
    rfl
  have hafter : after.focus.key = some 2 := hstretches.key_eq hmode
  have hselected : after.isSelected 1 ↔ l.model.Retains 2 1 ∨ l.model.canSelect 1 ∧ 1 = 2 := by
    refine hstretches.isSelected_iff (s := .empty) ?_ hmode ?_ rfl 1
    · rw [hl]
      rfl
    · rw [hl]
      rfl
  rw [hselected]
  clear hselected hstretches
  refine ⟨?_, hmode, ⟨.empty, ?_, rfl⟩, ?_, hafter, ?_, ?_, ?_⟩
  all_goals rw [hl]
  · rfl
  · rfl
  · exact hkey
  · exact hone
  · exact SelectionModel.isBetween_left hsecond hfirst
  · rintro (⟨hlive, -⟩ | ⟨-, heq⟩)
    · cases hlive
    · cases heq

end ListControl

end Listbox
