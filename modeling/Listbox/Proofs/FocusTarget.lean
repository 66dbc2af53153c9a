import Listbox.Proofs.FocusMoves

set_option autoImplicit false

/-! # Where the focus lands

Keys, presses, typed text, entering the list and a new edition all move the focus, each with a test of
its own for where it may go. A row may have the focus if it is an item that is not disabled, and with
two exceptions that is where they all lead.

A press takes any row that is there and not disabled, be it a group; and the focus enters a list on
its first or last selected row, be that disabled. Without an owner of the selection the second never
happens (`not_entersDisabled`): by then all that is stored can be selected. -/

universe u v

namespace Listbox

variable {K : Type u} {T : Type v} [DecidableEq K] [Hashable K]

namespace ListControl

open SelectionModel (Leads Guarded)

variable {l : ListControl K T} {e : Event K T} {p : K → Prop} {k : K}

/-! ## Every input -/

/-- If the input moves the focus to another row, then to one that may have it. -/
def LandsRightly (l : ListControl K T) (e : Event K T) : Prop :=
  ∀ k, (l.handle e).control.model.focus.key = some k → l.model.focus.key ≠ some k →
    (l.handle e).control.model.Focusable k

/-- A press begins on a group that is not disabled and does not have the focus. -/
def PressesGroup (l : ListControl K T) : Event K T → Prop
  | .pressStart k .. | .click k .. =>
    l.model.focus.key ≠ some k ∧ l.model.isDisabled k = false ∧
      ∃ n ∈ l.model.collection.toList, n.key = k ∧ n.isGroup = true
  | _ => False

/-- The focus enters the list, where no row has it and the nearest selected row is disabled. -/
def EntersDisabled (l : ListControl K T) : Event K T → Prop
  | .focusIn entry =>
    l.model.focus.key = none ∧
      ∃ k, l.model.selectedEnd? entry = some k ∧ l.model.isDisabled k = true
  | _ => False

theorem landsRightly_of_leads (h : Leads p l.model (l.handle e).control.model)
    (hp : ∀ k, p k → l.model.focus.key ≠ some k → (l.handle e).control.model.Focusable k) :
    l.LandsRightly e := by
  intro k hkey hmoved
  rcases h.focus with hsame | ⟨k', hkey', hpk⟩
  · exact absurd (hsame.symm.trans hkey) hmoved
  · rw [hkey] at hkey'
    cases hkey'
    exact hp k hpk hmoved

theorem landsRightly_of_key_eq (h : (l.handle e).control.model.focus.key = l.model.focus.key) :
    l.LandsRightly e := fun _ hkey hmoved => absurd (h.symm.trans hkey) hmoved

theorem focusable_handle_iff (he : e.IsDirect) :
    (l.handle e).control.model.Focusable k ↔ l.model.Focusable k :=
  SelectionModel.focusable_congr (l.undergoes_handle he).sameRows

/-- A row in reach may have the focus unless it is a group. -/
theorem focusable_iff_of_reaches (hk : l.Reaches k) :
    l.model.Focusable k ↔ ¬ ∃ n ∈ l.model.collection.toList, n.key = k ∧ n.isGroup = true := by
  obtain ⟨n, hn, rfl⟩ := List.mem_map.1 (Collection.contains_iff_mem_keys.1 hk.1)
  -- keys are distinct, so only this node is to be asked
  have hother : ∀ n' ∈ l.model.collection.toList, n'.key = n.key → n' = n :=
    fun n' hn' hkey => Collection.eq_of_key_eq hn' hn hkey
  constructor
  · rintro ⟨n₁, hn₁, hkey₁, hitem, -⟩ ⟨n₂, hn₂, hkey₂, hgroup⟩
    rw [hother n₁ hn₁ hkey₁] at hitem
    rw [hother n₂ hn₂ hkey₂, Entry.isGroup_eq_not_isItem, hitem] at hgroup
    cases hgroup
  · intro hgroup
    refine ⟨n, hn, rfl, ?_, hk.2⟩
    rw [← Bool.not_eq_false]
    intro hitem
    exact hgroup ⟨n, hn, rfl, by rw [Entry.isGroup_eq_not_isItem, hitem]; rfl⟩

/-- A press lands rightly unless it is on a group. -/
theorem landsRightly_iff_of_press (he : e.IsDirect)
    (hreached : l.Reaches k → (l.handle e).control.model.focus.key = some k)
    (hmissed : ¬ l.Reaches k → (l.handle e).control.model.focus.key = l.model.focus.key) :
    l.LandsRightly e ↔
      ¬ (l.model.focus.key ≠ some k ∧ l.model.isDisabled k = false ∧
        ∃ n ∈ l.model.collection.toList, n.key = k ∧ n.isGroup = true) := by
  by_cases hk : l.Reaches k
  · have hkey := hreached hk
    constructor
    · rintro hlands ⟨hmoved, -, hgroup⟩
      have hfocusable := (focusable_handle_iff he).1 (hlands k hkey hmoved)
      exact (focusable_iff_of_reaches hk).1 hfocusable hgroup
    · intro hnone k' hkey' hmoved
      rw [hkey] at hkey'
      cases hkey'
      refine (focusable_handle_iff he).2 ((focusable_iff_of_reaches hk).2 fun hgroup => ?_)
      exact hnone ⟨hmoved, hk.2, hgroup⟩
  · refine iff_of_true (landsRightly_of_key_eq (hmissed hk)) ?_
    rintro ⟨-, henabled, n, hn, rfl, -⟩
    exact hk ⟨Collection.contains_iff_mem_keys.2 (List.mem_map_of_mem hn), henabled⟩

theorem landsRightly_focusIn_iff {entry : FocusEntry} :
    l.LandsRightly (.focusIn entry) ↔ ¬ l.EntersDisabled (.focusIn entry) := by
  have he : Event.IsDirect (.focusIn entry : Event K T) := trivial
  constructor
  · rintro hlands ⟨hnone, k, hend, hdisabled⟩
    have hkey := key_focusIn hnone (entryTarget?_of_selectedEnd? hend)
      (SelectionModel.contains_of_selectedEnd? hend)
    have hmoved : l.model.focus.key ≠ some k := by
      rw [hnone]
      exact (Option.some_ne_none k).symm
    have hfocusable := (focusable_handle_iff he).1 (hlands k hkey hmoved)
    rw [(SelectionModel.focusable_iff_of_selectedEnd? hend).1 hfocusable] at hdisabled
    cases hdisabled
  · intro henters
    refine landsRightly_of_leads (l.leads_focusIn entry) ?_
    rintro k ⟨hnone, htarget⟩ -
    rw [focusable_handle_iff he]
    rcases selectedEnd?_or_focusable_of_entryTarget? htarget with hend | ⟨-, hfocusable⟩
    · rw [SelectionModel.focusable_iff_of_selectedEnd? hend, ← Bool.not_eq_true]
      exact fun hdisabled => henters ⟨hnone, k, hend, hdisabled⟩
    · exact hfocusable

/-- **Inputs.** An input lands rightly, unless it presses a group or enters on a disabled row. -/
theorem landsRightly_iff (he : e.IsInput) :
    l.LandsRightly e ↔ ¬ l.PressesGroup e ∧ ¬ l.EntersDisabled e := by
  cases e with
  | pressStart k pointer mods origin now =>
    refine Iff.trans (landsRightly_iff_of_press trivial key_pressStart fun hk => ?_)
      (and_iff_left id).symm
    exact congrArg (fun r => r.control.model.focus.key) (pressStart_of_not_reaches hk)
  | click k pointer mods now =>
    have hclick := (l.leads_click k pointer mods now).key_eq
    refine Iff.trans (landsRightly_iff_of_press trivial ?_ fun hk => ?_) (and_iff_left id).symm
    · exact fun hk => hclick.trans (key_pressStart hk)
    · rw [pressStart_of_not_reaches hk] at hclick
      exact hclick
  | focusIn entry => exact landsRightly_focusIn_iff.trans (and_iff_right id).symm
  | keyDown stroke mods layout now =>
    refine iff_of_true (landsRightly_of_leads (l.leads_keyDown stroke mods layout now) ?_) ⟨id, id⟩
    intro k hk _
    have he : Event.IsDirect (.keyDown stroke mods layout now : Event K T) := trivial
    exact (focusable_handle_iff he).2 hk
  | setEdition next =>
    refine iff_of_true ?_ ⟨id, id⟩
    intro k hkey hmoved
    rw [handle, model_setEdition] at hkey ⊢
    exact SelectionModel.focusable_setEdition hkey hmoved
  | pressUp target point now =>
    exact iff_of_true (landsRightly_of_key_eq (l.leads_pressUp target point now).key_eq) ⟨id, id⟩
  | poll now => exact iff_of_true (landsRightly_of_key_eq (l.leads_poll now).key_eq) ⟨id, id⟩
  | pressMove point =>
    exact iff_of_true (landsRightly_of_key_eq (l.leads_pressMove point).key_eq) ⟨id, id⟩
  | pressCancel | focusOut => exact iff_of_true (landsRightly_of_key_eq rfl) ⟨id, id⟩
  | operation op => exact he.elim

/-! ## Without an owner -/

theorem guarded_handle (h : l.model.Guarded) (he : e.IsInput) :
    (l.handle e).control.model.Guarded := by
  cases e with
  | pressStart k pointer mods origin now =>
    exact (l.leads_pressStart k pointer mods origin now).guarded h
  | click k pointer mods now =>
    have hstart := l.leads_pressStart k pointer mods .zero now
    exact (hstart.trans (l.leads_click k pointer mods now)).guarded h
  | focusIn entry => exact (l.leads_focusIn entry).guarded h
  | keyDown stroke mods layout now => exact (l.leads_keyDown stroke mods layout now).guarded h
  | setEdition next =>
    rw [handle, model_setEdition]
    exact h.setEdition next
  | pressUp target point now =>
    exact (l.leads_pressUp (p := fun _ => False) target point now).guarded h
  | poll now => exact (l.leads_poll (p := fun _ => False) now).guarded h
  | pressMove point => exact (l.leads_pressMove (p := fun _ => False) point).guarded h
  | pressCancel | focusOut => exact ⟨h.free, h.admits⟩
  | operation op => exact he.elim

theorem not_entersDisabled (h : l.model.Guarded) : ¬ l.EntersDisabled e := by
  intro henters
  cases e with
  | focusIn entry =>
    obtain ⟨hnone, k, hend, hdisabled⟩ := henters
    rw [SelectionModel.not_isDisabled_of_selectedEnd? (h.admits hnone) hend] at hdisabled
    cases hdisabled
  | _ => exact henters

/-- **Landing.** However a list control has come about, its inputs move the focus only to items that
are not disabled, as long as none of them is a press on a group or enters on a disabled row. Without
an owner of the selection only a press on a group can go wrong. -/
theorem focus_lands_iff {events : List (Event K T)} (hinputs : ∀ e ∈ events, e.IsInput) :
    (∀ l : ListControl K T, l.Throughout LandsRightly events ↔
      l.Throughout (fun l e => ¬ l.PressesGroup e ∧ ¬ l.EntersDisabled e) events) ∧
    ∀ (m : SelectionModel K T) (config : InteractionConfig), SelectionModel.Built m →
      m.controlled = false →
      ((ListControl.new m config).Throughout LandsRightly events ↔
        (ListControl.new m config).Throughout (fun l e => ¬ l.PressesGroup e) events) := by
  constructor
  · intro l
    refine throughout_congr (fun _ => True) trivial ?_ fun _ _ _ _ _ => trivial
    exact fun l e he _ => landsRightly_iff (hinputs e he)
  · intro m config hm hfree
    have hguarded : (ListControl.new m config).model.Guarded := ⟨hfree, fun _ => hm.admits hfree⟩
    refine throughout_congr (fun l => l.model.Guarded) hguarded ?_ ?_
    · intro l e he hl
      rw [landsRightly_iff (hinputs e he)]
      exact and_iff_left (not_entersDisabled hl)
    · exact fun l e he hl _ => guarded_handle hl (hinputs e he)

theorem edition_handle_setEdition {next : Edition K T}
    (he : next.number ≠ l.model.edition.number) :
    (l.handle (.setEdition next)).control.model.edition = next := by
  rw [handle, model_setEdition, SelectionModel.setEdition_of_ne he]
  exact (SelectionModel.sameSetting_prune _).edition

/-- A group with one row, and a row after it. -/
def menu : Forest (Entry Nat Unit) :=
  .tree (.group 10 "group") (.tree (.item 1 "one" ()) .nil .nil) (.tree (.item 2 "two" ()) .nil .nil)

/-- The same rows, the last of them disabled. -/
def dimmedMenu : Forest (Entry Nat Unit) :=
  .tree (.group 10 "group") (.tree (.item 1 "one" ()) .nil .nil)
    (.tree { Entry.item 2 "two" () with disabled := true } .nil .nil)

/-- A row that is disabled while it is selected does not get the focus, if no owner holds on to it. -/
theorem focus_lands_menu :
    ∃ c d, Collection.ofForest menu = .ok c ∧ Collection.ofForest dimmedMenu = .ok d ∧
      let m := (SelectionModel.new ⟨0, c⟩ { mode := .multiple }).withSelection (.keys (.ofList [2]))
      let events : List (Event Nat Unit) :=
        [.setEdition ⟨1, d⟩, .focusIn .forward, .pressStart 1 .mouse {} .zero 0]
      (∀ e ∈ events, e.IsInput) ∧ SelectionModel.Built m ∧ m.controlled = false ∧
        (ListControl.new m {}).Throughout LandsRightly events := by
  obtain ⟨c, hc⟩ := Collection.exists_ofForest_ok_iff.2 (show menu.keys.Nodup by decide)
  obtain ⟨d, hd⟩ := Collection.exists_ofForest_ok_iff.2 (show dimmedMenu.keys.Nodup by decide)
  refine ⟨c, d, hc, hd, ?_⟩
  intro m events
  have hinputs : ∀ e ∈ events, e.IsInput := by
    refine List.forall_mem_cons.2 ⟨trivial, List.forall_mem_cons.2 ⟨trivial, ?_⟩⟩
    exact List.forall_mem_singleton.2 trivial
  have hm : SelectionModel.Built m := .withSelection (.new ⟨0, c⟩ { mode := .multiple }) _
  have hlands := (focus_lands_iff hinputs).2 m {} hm rfl
  refine ⟨hinputs, hm, rfl, hlands.2 ⟨id, id, ?_, trivial⟩⟩
  -- the press is on a row of the new edition
  let moved := ((ListControl.new m {}).handle (.setEdition ⟨1, d⟩)).control
  have hmoved : moved.model.edition = ⟨1, d⟩ := edition_handle_setEdition Nat.one_ne_zero
  have hentered : (moved.focusIn .forward).model.edition = ⟨1, d⟩ :=
    (moved.undergoes_focusIn .forward).sameRows.edition.trans hmoved
  have hgroup : ¬ ∃ n ∈ d.toList, n.key = 1 ∧ n.isGroup = true := by
    rw [Collection.toList_ofForest hd]
    decide
  rintro ⟨-, -, hpressed⟩
  change ∃ n ∈ (moved.focusIn .forward).model.edition.collection.toList, _ at hpressed
  rw [hentered] at hpressed
  exact hgroup hpressed

/-- The rows in the hands of an owner, who has the last one selected. -/
def owned (c : Collection Nat Unit) : SelectionModel Nat Unit :=
  (SelectionModel.new ⟨0, c⟩ { mode := .multiple }).controlledBy (.keys (.ofList [2]))

/-- The same rows in an edition in which the last one is disabled. -/
def dimmed (c d : Collection Nat Unit) : SelectionModel Nat Unit :=
  { owned c with edition := ⟨1, d⟩ }

section Owned

variable {c d : Collection Nat Unit} (hc : Collection.ofForest menu = .ok c)
  (hd : Collection.ofForest dimmedMenu = .ok d)

theorem model_handle_owned :
    ((ListControl.new (owned c) {}).handle (.setEdition ⟨1, d⟩)).control.model = dimmed c d := by
  have hnew : (1 : Nat) ≠ (owned c).edition.number := Nat.one_ne_zero
  rw [handle, model_setEdition]
  change ((owned c).setEdition ⟨1, d⟩).model = dimmed c d
  rw [SelectionModel.setEdition_of_ne hnew, SelectionModel.model_prune_of_controlled rfl]
  rfl

include hd in
theorem isDisabled_dimmed : (dimmed c d).isDisabled 2 = true := by
  refine SelectionModel.isDisabled_iff.2 ⟨rfl, Or.inr ?_⟩
  change ∃ n ∈ d.toList, n.key = 2 ∧ n.disabled = true
  rw [Collection.toList_ofForest hd]
  decide

include hd in
theorem reaches_group {l : ListControl Nat Unit} (hrows : (dimmed c d).SameRows l.model) :
    l.Reaches 10 := by
  constructor
  · unfold SelectionModel.collection
    rw [hrows.edition]
    change d.contains 10
    rw [Collection.contains_iff_mem_keys, Collection.keys_ofForest hd]
    decide
  · rw [hrows.isDisabled_eq, ← Bool.not_eq_true, SelectionModel.isDisabled_iff]
    rintro ⟨-, hkey | hnode⟩
    · change (Std.HashSet.ofList ([] : List Nat)).contains 10 = true at hkey
      simp at hkey
    · change ∃ n ∈ d.toList, n.key = 10 ∧ n.disabled = true at hnode
      rw [Collection.toList_ofForest hd] at hnode
      revert hnode
      decide

include hc hd in
theorem selectedEnd?_dimmed : (dimmed c d).selectedEnd? .forward = some 2 := by
  have hitem : ∃ n ∈ d.toList, n.key = 2 ∧ n.isItem = true := by
    rw [Collection.toList_ofForest hd]
    decide
  obtain ⟨n, hn, hkey, hitem⟩ := hitem
  have hcan : (SelectionModel.new ⟨0, c⟩ { mode := .multiple }).canSelect 2 := by
    rw [SelectionModel.canSelect_new_iff hc]
    decide
  have hcontains : d.contains 2 := by
    rw [Collection.contains_iff_mem_keys, Collection.keys_ofForest hd]
    decide
  have hallows : (dimmed c d).mode.Allows (dimmed c d).selection := trivial
  rw [← hkey]
  refine SelectionModel.firstSelected?_of_only hallows hn hitem fun x => ?_
  rw [hkey]
  exact SelectionModel.mem_selectedKeys_of_filter rfl hcan hcontains

end Owned

/-- The focus enters on a disabled row that an owner holds on to, and a press takes it to a group. -/
theorem focus_lands_astray :
    ∃ c d, Collection.ofForest menu = .ok c ∧ Collection.ofForest dimmedMenu = .ok d ∧
      SelectionModel.Built (owned c) ∧
      let l := ListControl.new (owned c) {}
      let entered := l.run [.setEdition ⟨1, d⟩, .focusIn .forward]
      let pressed := (entered.handle (.pressStart 10 .mouse {} .zero 0)).control
      entered.model.focus.key = some 2 ∧ entered.model.isDisabled 2 = true ∧
        pressed.model.focus.key = some 10 ∧
        (∃ n ∈ pressed.model.collection.toList, n.key = 10 ∧ n.isGroup = true) ∧
        ¬ l.Throughout LandsRightly
          [.setEdition ⟨1, d⟩, .focusIn .forward, .pressStart 10 .mouse {} .zero 0] := by
  obtain ⟨c, hc⟩ := Collection.exists_ofForest_ok_iff.2 (show menu.keys.Nodup by decide)
  obtain ⟨d, hd⟩ := Collection.exists_ofForest_ok_iff.2 (show dimmedMenu.keys.Nodup by decide)
  refine ⟨c, d, hc, hd, .controlledBy (.new ⟨0, c⟩ { mode := .multiple }) _, ?_⟩
  intro l entered pressed
  let moved := (l.handle (.setEdition ⟨1, d⟩)).control
  have hmoved : moved.model = dimmed c d := model_handle_owned
  have hend : moved.model.selectedEnd? .forward = some 2 := by
    rw [hmoved]
    exact selectedEnd?_dimmed hc hd
  have hnone : moved.model.focus.key = none := by
    rw [hmoved]
    rfl
  have hkey : entered.model.focus.key = some 2 :=
    key_focusIn hnone (entryTarget?_of_selectedEnd? hend)
      (SelectionModel.contains_of_selectedEnd? hend)
  have hrows : (dimmed c d).SameRows entered.model := by
    rw [← hmoved]
    exact (moved.undergoes_focusIn .forward).sameRows
  have hpressed : entered.model.SameRows pressed.model :=
    (entered.responds_pressStart 10 .mouse {} .zero 0).effect.sameRows
  have hgroup : ∃ n ∈ d.toList, n.key = 10 ∧ n.isGroup = true := by
    rw [Collection.toList_ofForest hd]
    decide
  refine ⟨hkey, ?_, key_pressStart (reaches_group hd hrows), ?_, fun hlands => ?_⟩
  · rw [hrows.isDisabled_eq]
    exact isDisabled_dimmed hd
  · unfold SelectionModel.collection
    rw [hpressed.edition, hrows.edition]
    exact hgroup
  · refine landsRightly_focusIn_iff.1 hlands.2.1 ⟨hnone, 2, hend, ?_⟩
    change moved.model.isDisabled 2 = true
    rw [hmoved]
    exact isDisabled_dimmed hd

end ListControl

end Listbox
