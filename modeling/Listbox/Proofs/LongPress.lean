import Listbox.Proofs.Polling
import Listbox.Proofs.Response

set_option autoImplicit false

/-! # Toggling for a while

A long press selects its row and makes a list that replaces toggle, until nothing is selected any
more. Storing sees to the end of it: whoever stores an empty key set goes back to replacing. So if a
list that toggles for a while has something selected, it has after every gesture and every change of
edition (`Settled`).

What a long press does comes in the other order. It selects first and makes the list toggle
afterwards, whatever has come of selecting: if the long press took the last key away, or had no
effect and found nothing selected, the list toggles with nothing selected and goes on doing so.
`toggling_ends_iff` says that this is all that goes wrong. -/

universe u v

namespace Listbox

variable {K : Type u} {T : Type v}

theorem KeySet.size_le_one {s : KeySet K} {k : K} (h : ∀ x ∈ s.items, x = k) : s.size ≤ 1 := by
  have hrepeat : s.items = List.replicate s.size k := List.eq_replicate_of_mem h
  have hnodup := s.nodup
  rw [hrepeat] at hnodup
  exact List.nodup_replicate.1 hnodup

variable [DecidableEq K] [Hashable K]

namespace SelectionModel

variable {m m' : SelectionModel K T} {u : Update K T} {next : Selection K} {k : K}

/-! ## What every input keeps -/

/-- A list that toggles has something selected. -/
def Settled (m : SelectionModel K T) : Prop := m.behavior = .toggle → m.selection.isEmpty = false

/-- The model is one that replaces, without an owner, and stores no key that its collection lacks. -/
structure Steady (m : SelectionModel K T) : Prop where
  free : m.controlled = false
  replaces : m.config.behavior = .replace
  knows : m.Knows m.selection

theorem Steady.of_sameSetting (h : m.Steady) (hs : SameSetting m m') (hsel : m.Knows m'.selection) :
    m'.Steady where
  free := hs.controlled.trans h.free
  replaces := (congrArg (·.behavior) hs.config).trans h.replaces
  knows := hs.knows.2 hsel

/-- Whoever stores an empty key set goes back to replacing. -/
theorem settled_store (h : m.config.behavior = .replace) (next : Selection K) :
    (m.store next).Settled := by
  intro htoggle
  unfold store at htoggle ⊢
  simp only at htoggle ⊢
  split at htoggle
  · cases htoggle
  · next hsome =>
    rw [htoggle] at hsome
    simpa [h] using hsome

theorem settled_adopt (h : m.Steady) (next : Selection K) : (m.adopt next).model.Settled := by
  have hmodel : (m.adopt next).model = m.store next := by simp [adopt, h.free]
  rw [hmodel]
  exact settled_store h.replaces next

/-- A proposal that is not news has the members of what is stored. -/
theorem settled_propose (h : m.Steady) (hm : m.Settled) (hnext : m.Knows next) :
    (m.propose next).model.Settled := by
  unfold propose
  split
  · exact settled_adopt h next
  · next hsame =>
    rw [Bool.or_eq_true, not_or] at hsame
    have halike : m.selection.Alike next := alike_of_not_differs h.knows hnext hsame.1
    rw [if_neg (by simp [h.free])]
    intro htoggle
    change next.isEmpty = false
    rw [halike.isEmpty_eq]
    exact hm htoggle

theorem Steady.gesture (h : m.Steady) (g : Gesture K) : (m.gesture g).model.Steady := by
  rcases gesture_cases m g with hstill | ⟨next, hnext, hprop⟩
  · rw [hstill]
    exact h
  · refine h.of_sameSetting (sameSetting_gesture m g) ?_
    rw [hnext.selection_gesture h.free]
    exact hnext.knows

theorem settled_gesture (h : m.Steady) (hm : m.Settled) (g : Gesture K) :
    (m.gesture g).model.Settled := by
  rcases gesture_cases m g with hstill | ⟨next, hnext, hprop⟩
  · rw [hstill]
    exact hm
  · rw [hprop]
    exact settled_propose h hm hnext.knows

theorem Undergoes.steady (hu : m.Undergoes u) (h : m.Steady) : u.model.Steady := by
  cases hu with
  | rest focus => exact ⟨h.free, h.replaces, h.knows⟩
  | gesture focus g =>
    have hfocus : Steady { m with focus } := ⟨h.free, h.replaces, h.knows⟩
    exact hfocus.gesture g

theorem Undergoes.settled (hu : m.Undergoes u) (h : m.Steady) (hm : m.Settled) :
    u.model.Settled := by
  cases hu with
  | rest focus => exact hm
  | gesture focus g =>
    have hfocus : Steady { m with focus } := ⟨h.free, h.replaces, h.knows⟩
    exact settled_gesture hfocus hm g

/-- Pruning makes up for the keys that have been lost. -/
theorem steady_prune (hfree : m.controlled = false) (hreplaces : m.config.behavior = .replace) :
    m.prune.model.Steady := by
  have setting := sameSetting_prune m
  refine ⟨setting.controlled.trans hfree, (congrArg (·.behavior) setting.config).trans hreplaces,
    setting.knows.2 ?_⟩
  rcases prune_cases m with ⟨hadm, h⟩ | ⟨s, -, -, h⟩
  · rw [h]
    exact hadm.knows
  · rw [h, selection_adopt, hfree]
    exact (admits_filter s).knows

theorem settled_prune (hfree : m.controlled = false) (hreplaces : m.config.behavior = .replace)
    (hm : m.Settled) : m.prune.model.Settled := by
  rcases prune_cases m with ⟨-, h⟩ | ⟨s, -, -, h⟩
  · rw [h]
    exact hm
  · have hmodel : m.prune.model = m.store (.keys (s.filter m.canSelect)) := by
      rw [h]
      simp [adopt, hfree]
    rw [hmodel]
    exact settled_store hreplaces _

theorem Steady.setEdition (h : m.Steady) (e : Edition K T) : (m.setEdition e).model.Steady := by
  by_cases he : e.number = m.edition.number
  · have hstill : m.setEdition e = m.still := if_pos he
    rw [hstill]
    exact h
  · rw [setEdition_of_ne he]
    exact steady_prune h.free h.replaces

theorem settled_setEdition (h : m.Steady) (hm : m.Settled) (e : Edition K T) :
    (m.setEdition e).model.Settled := by
  by_cases he : e.number = m.edition.number
  · have hstill : m.setEdition e = m.still := if_pos he
    rw [hstill]
    exact hm
  · rw [setEdition_of_ne he]
    exact settled_prune h.free h.replaces hm

/-! ## What is left of a selection -/

theorem not_isEmpty_of_mem_liveKeys (h : k ∈ m.liveKeys.items) : m.selection.isEmpty = false := by
  cases hsel : m.selection with
  | all => rfl
  | keys s =>
    rw [liveKeys_of_keys hsel, KeySet.items_filter] at h
    exact Selection.not_isEmpty_of_mem (List.mem_filter.1 h).1

/-- A live key is a selected one. -/
theorem isSelected_of_mem_liveKeys (h : k ∈ m.liveKeys.items) : m.isSelected k = true := by
  have hk := canSelect_of_mem_liveKeys h
  have hmode := mode_ne_none_of_canSelect hk
  cases hsel : m.selection with
  | all => simp [isSelected, hsel, hk, hmode]
  | keys s =>
    rw [liveKeys_of_keys hsel, KeySet.items_filter] at h
    simp [isSelected, hsel, hmode, contains_of_canSelect hk, (List.mem_filter.1 h).1]

/-- Flipping a row leaves nothing exactly if it takes the last live key away, which it may. -/
theorem isEmpty_toggle_iff (hfree : m.controlled = false) (hk : m.canSelect k)
    (hsel : m.mode = .single → m.isSelected k) :
    (m.toggle k).model.selection.isEmpty = true ↔
      m.config.disallowEmpty = false ∧ ∀ x, x ∈ m.liveKeys.items ↔ x = k := by
  by_cases hlive : k ∈ m.liveKeys.items
  · by_cases hlast : m.config.disallowEmpty → 1 < m.liveKeys.size
    · have hstored := (Proposes.switchOff k hk hsel hlive hlast).selection_gesture hfree
      change (m.gesture (.toggle k)).model.selection.isEmpty = true ↔ _
      rw [hstored]
      change (m.liveKeys.erase k).isEmpty = true ↔ _
      rw [KeySet.isEmpty_iff, List.eq_nil_iff_forall_not_mem]
      simp only [KeySet.mem_items_erase]
      constructor
      · intro hnone
        have honly : ∀ x ∈ m.liveKeys.items, x = k :=
          fun x hx => Decidable.byContradiction fun hne => hnone x ⟨hne, hx⟩
        refine ⟨?_, fun x => ⟨honly x, fun h => h ▸ hlive⟩⟩
        rw [Bool.eq_false_iff]
        intro hkeep
        exact Nat.not_lt_of_le (KeySet.size_le_one honly) (hlast hkeep)
      · rintro ⟨-, honly⟩ x ⟨hne, hx⟩
        exact hne ((honly x).1 hx)
    · rw [Classical.not_imp] at hlast
      have hfew : m.liveKeys.size ≤ 1 := Nat.le_of_not_lt hlast.2
      have hkept : ¬ (m.mode = .single ∧ !m.isSelected k) := by simpa using hsel
      have hstill : m.toggle k = m.still := by
        simp only [toggle, hk, if_neg hkept, KeySet.contains_iff.2 hlive,
          if_pos (And.intro hlast.1 hfew)]
        rfl
      have hsome : m.selection.isEmpty = false := not_isEmpty_of_mem_liveKeys hlive
      rw [hstill]
      refine iff_of_false ?_ ?_
      · exact Bool.eq_false_iff.1 hsome
      · rintro ⟨hmay, -⟩
        rw [hlast.1] at hmay
        cases hmay
  · have hstored := (Proposes.switchOn k hk hsel hlive).selection_gesture hfree
    change (m.gesture (.toggle k)).model.selection.isEmpty = true ↔ _
    rw [hstored]
    refine iff_of_false ?_ fun h => hlive ((h.2 k).2 rfl)
    exact Bool.eq_false_iff.1 (Selection.not_isEmpty_of_mem (k := k) (by simp))

/-- Replacing and extending leave the row itself. -/
theorem not_isEmpty_replace (hfree : m.controlled = false) (hk : m.canSelect k) :
    (m.replace k).model.selection.isEmpty = false := by
  have hproposes := Proposes.replace k hk
  change (m.gesture (.replace k)).model.selection.isEmpty = false
  rw [hproposes.selection_gesture hfree]
  exact hproposes.not_isEmpty_of_canSelect (Or.inl rfl) hk

theorem not_isEmpty_extend (hfree : m.controlled = false) (hk : m.canSelect k)
    (hmode : m.mode = .multiple) : (m.extend k).model.selection.isEmpty = false := by
  have hproposes : ∃ next, m.Proposes (.extend k) next := by
    by_cases hall : m.selection = .all
    · exact ⟨_, .extendAll k hmode (contains_of_canSelect hk) hall⟩
    · exact ⟨_, .stretch k hmode (contains_of_canSelect hk) hall⟩
  obtain ⟨next, hproposes⟩ := hproposes
  change (m.gesture (.extend k)).model.selection.isEmpty = false
  rw [hproposes.selection_gesture hfree]
  exact hproposes.not_isEmpty_of_canSelect (Or.inr rfl) hk

end SelectionModel

namespace ListControl

variable {l : ListControl K T} {e : Event K T} {k : K}

/-- A request to select a row that is made with a touch leaves nothing exactly if it flips the only
live key. -/
theorem isEmpty_selectRow_iff {mods : Modifiers} (hfree : l.model.controlled = false)
    (hk : l.model.canSelect k) :
    (l.selectRow k .touch mods).model.selection.isEmpty = true ↔
      l.model.config.disallowEmpty = false ∧ (∀ x, x ∈ l.model.liveKeys.items ↔ x = k) ∧
        ¬ (l.model.mode = .multiple ∧ mods.shift = true) := by
  unfold selectRow
  split
  · next hmode => exact absurd hmode (SelectionModel.mode_ne_none_of_canSelect hk)
  · next hmode =>
    have hmany : ¬ (l.model.mode = .multiple ∧ mods.shift = true) := by simp [hmode]
    split
    · next hsel =>
      have hsel := (Bool.and_eq_true_iff.1 hsel).1
      rw [SelectionModel.isEmpty_toggle_iff hfree hk fun _ => hsel, and_iff_left hmany]
    · next hkept =>
      refine iff_of_false ?_ ?_
      · exact Bool.eq_false_iff.1 (SelectionModel.not_isEmpty_replace hfree hk)
      · rintro ⟨hmay, honly, -⟩
        have hsel := SelectionModel.isSelected_of_mem_liveKeys ((honly k).2 rfl)
        simp [hmay, hsel] at hkept
  · next hmode =>
    split
    · next hshift =>
      refine iff_of_false ?_ fun h => h.2.2 ⟨hmode, hshift⟩
      exact Bool.eq_false_iff.1 (SelectionModel.not_isEmpty_extend hfree hk hmode)
    · next hshift =>
      have hflips : l.model.behavior = .toggle ∨ mods.isCtrlLike l.config.platform ∨
          PointerType.touch = .touch ∨ PointerType.touch = .virtual := by simp
      have hsel : l.model.mode = .single → l.model.isSelected k := by simp [hmode]
      rw [if_pos hflips, SelectionModel.isEmpty_toggle_iff hfree hk hsel]
      simp [hshift]

/-- Selecting a row with a long press leaves nothing selected: a link that is not to be selected finds
nothing selected, and any other row is flipped, is the only live key and may be taken away. -/
def Empties (l : ListControl K T) (k : K) : Prop :=
  if l.model.isLink k = true ∧ l.model.config.linkBehavior = .none then
    l.model.selection.isEmpty = true
  else
    l.model.config.disallowEmpty = false ∧ (∀ x, x ∈ l.model.liveKeys.items ↔ x = k) ∧
      ¬ (l.model.mode = .multiple ∧ l.pressModifiers.shift = true)

/-- Where links are selected like any row, only taking the last key away leaves nothing. -/
theorem empties_iff_of_action (h : l.model.config.linkBehavior = .action) :
    l.Empties k ↔
      l.model.config.disallowEmpty = false ∧ (∀ x, x ∈ l.model.liveKeys.items ↔ x = k) ∧
        ¬ (l.model.mode = .multiple ∧ l.pressModifiers.shift = true) := by
  rw [Empties, h, if_neg (by simp)]

/-- The event is a long press that leaves nothing selected. -/
def Strands (l : ListControl K T) : Event K T → Prop
  | .poll now => ∃ k, (l.press.poll now).1 = some k ∧ l.allowsLongPress k = true ∧ l.Empties k
  | _ => False

theorem linkBehavior_ne_override (hk : l.model.canSelect k) (hlink : l.model.isLink k = true) :
    l.model.config.linkBehavior ≠ .override := by
  intro hbehavior
  unfold SelectionModel.canSelect at hk
  unfold SelectionModel.isLink at hlink
  cases hn : l.model.collection.get? k with
  | none => simp [hn] at hlink
  | some n =>
    simp only [hn, Option.any_some] at hlink
    simp [hn, hbehavior, hlink] at hk

theorem isEmpty_selectWith_iff (hfree : l.model.controlled = false) (hk : l.model.canSelect k) :
    (l.selectWith k .touch l.pressModifiers).1.model.selection.isEmpty = true ↔ l.Empties k := by
  have hmode := SelectionModel.mode_ne_none_of_canSelect hk
  unfold selectWith Empties
  rw [if_neg (by simp), if_neg hmode]
  by_cases hlink : l.model.isLink k
  · rw [if_pos hlink]
    cases hbehavior : l.model.config.linkBehavior with
    | action =>
      rw [if_neg (by simp)]
      exact isEmpty_selectRow_iff hfree hk
    | selection =>
      rw [if_neg (by simp)]
      exact isEmpty_selectRow_iff hfree hk
    | override => exact absurd hbehavior (linkBehavior_ne_override hk hlink)
    | none =>
      rw [if_pos ⟨hlink, rfl⟩]
      exact Iff.rfl
  · rw [if_neg hlink, if_neg fun h => hlink h.1]
    exact isEmpty_selectRow_iff hfree hk

end ListControl

/-- The event is something that a list control hears of, and no operation on its model. -/
def Event.IsInput : Event K T → Prop
  | .operation _ => False
  | _ => True

namespace ListControl

variable {l : ListControl K T} {e : Event K T} {k : K}

theorem model_setEdition (l : ListControl K T) (e : Edition K T) :
    (l.setEdition e).control.model = (l.model.setEdition e).model := by
  unfold setEdition
  simp only
  split
  · rfl
  · rfl

theorem steady_handle (h : l.model.Steady) (he : e.IsInput) :
    (l.handle e).control.model.Steady := by
  cases e with
  | poll now =>
    rcases l.poll_cases now with hpoll | ⟨k, -, hpoll⟩
    · rw [handle, hpoll]
      exact h
    · have hselect := (l.undergoes_selectWith k .touch l.pressModifiers).steady h
      rw [handle, hpoll]
      exact ⟨hselect.free, hselect.replaces, hselect.knows⟩
  | setEdition next =>
    rw [handle, model_setEdition]
    exact h.setEdition next
  | operation op => exact he.elim
  | _ =>
    rw [← Reaction.model_updated]
    refine (l.undergoes_handle ?_).steady h
    trivial

/-- A long press makes the list toggle, whatever has come of it. -/
theorem settled_poll_iff {now : Nat} (h : l.model.Steady) (hl : l.model.Settled) :
    (l.poll now).control.model.Settled ↔ ¬ l.Strands (.poll now) := by
  rcases l.poll_cases now with hpoll | ⟨k, ⟨hheld, hallows⟩, hpoll⟩
  · refine iff_of_true ?_ ?_
    · rw [hpoll]
      exact hl
    · rintro ⟨k, hheld, hallows, -⟩
      have hhandled := l.handled_poll_iff.2 ⟨k, hheld, hallows⟩
      rw [hpoll] at hhandled
      cases hhandled
  · have hk : l.model.canSelect k :=
      (Bool.and_eq_true_iff.1 (allowsSelection_of_allowsLongPress hallows)).2
    have hstrands : l.Strands (.poll now) ↔ l.Empties k := by
      constructor
      · rintro ⟨k', hheld', -, hempties⟩
        rw [hheld] at hheld'
        cases hheld'
        exact hempties
      · exact fun hempties => ⟨k, hheld, hallows, hempties⟩
    rw [hstrands, ← isEmpty_selectWith_iff h.free hk, Bool.not_eq_true, hpoll]
    exact ⟨fun hsettled => hsettled rfl, fun hsome _ => hsome⟩

/-- **Step.** A list that has something selected if it toggles still has after an input, unless that
is a long press which leaves nothing. -/
theorem settled_handle_iff (h : l.model.Steady) (hl : l.model.Settled) (he : e.IsInput) :
    (l.handle e).control.model.Settled ↔ ¬ l.Strands e := by
  cases e with
  | poll now => exact settled_poll_iff h hl
  | setEdition next =>
    refine iff_of_true ?_ id
    rw [handle, model_setEdition]
    exact SelectionModel.settled_setEdition h hl next
  | operation op => exact he.elim
  | _ =>
    refine iff_of_true ?_ id
    rw [← Reaction.model_updated]
    refine (l.undergoes_handle ?_).settled h hl
    trivial

theorem behavior_built {m : SelectionModel K T} (h : SelectionModel.Built m) :
    m.behavior = m.config.behavior := by
  induction h with
  | new e config => rfl
  | withSelection hm sel ih => exact ih
  | controlledBy hm sel ih => exact ih
  | setObserved hm on ih => exact ih

/-- **Toggling ends.** In every run of inputs from the start, a list that replaces and has no owner
toggles only while something is selected, exactly if the run comes upon no long press that leaves
nothing selected. -/
theorem toggling_ends_iff {m : SelectionModel K T} (hm : SelectionModel.Built m)
    (hfree : m.controlled = false) (hreplaces : m.config.behavior = .replace)
    (config : InteractionConfig) {events : List (Event K T)} (hinputs : ∀ e ∈ events, e.IsInput) :
    let l := ListControl.new m config
    l.model.Settled ∧
      (l.Throughout (fun l e => (l.handle e).control.model.Settled) events ↔
        l.Throughout (fun l e => ¬ l.Strands e) events) := by
  intro l
  have hsteady : l.model.Steady := ⟨hfree, hreplaces, hm.consistent.knows hfree⟩
  have hsettled : l.model.Settled := by
    have hbehavior : l.model.behavior = .replace := (behavior_built hm).trans hreplaces
    intro htoggle
    rw [hbehavior] at htoggle
    cases htoggle
  refine ⟨hsettled, throughout_congr (fun l => l.model.Steady ∧ l.model.Settled)
    ⟨hsteady, hsettled⟩ ?_ ?_⟩
  · exact fun l e he hl => settled_handle_iff hl.1 hl.2 (hinputs e he)
  · exact fun l e he hl hafter => ⟨steady_handle hl.1 (hinputs e he), hafter⟩

/-- A long press on a row of a list with nothing selected leaves the row selected. -/
theorem toggling_ends_twoRows :
    ∃ c, Collection.ofForest SelectionModel.twoRows = .ok c ∧
      let m := SelectionModel.new ⟨0, c⟩ { mode := .multiple, behavior := .replace }
      SelectionModel.Built m ∧ m.controlled = false ∧ m.config.behavior = .replace ∧
      (ListControl.new m { hasAction := true }).Throughout
        (fun l e => (l.handle e).control.model.Settled)
        [.pressStart 1 .touch {} .zero 0, .poll 600] := by
  obtain ⟨c, hc⟩ := Collection.exists_ofForest_ok_iff.2
    (show SelectionModel.twoRows.keys.Nodup by decide)
  refine ⟨c, hc, ?_⟩
  intro m
  have hm : SelectionModel.Built m := .new ⟨0, c⟩ { mode := .multiple, behavior := .replace }
  have hk : m.canSelect 1 := by
    rw [SelectionModel.canSelect_new_iff hc]
    decide
  let l := ListControl.new m { hasAction := true }
  let events : List (Event Nat Unit) := [.pressStart 1 .touch {} .zero 0, .poll 600]
  have hinputs : ∀ e ∈ events, e.IsInput := by
    intro e he
    rcases List.mem_cons.1 he with rfl | he
    · trivial
    · rw [List.mem_singleton.1 he]
      trivial
  have hends := (toggling_ends_iff hm rfl rfl { hasAction := true } hinputs).2
  refine ⟨hm, rfl, rfl, hends.2 ⟨id, ?_, trivial⟩⟩
  have hstart : (l.handle (.pressStart 1 .touch {} .zero 0)).control =
      l.beginPress 1 .touch {} .zero 0 := by
    rw [handle, pressStart_of_canSelect hk rfl]
    rfl
  obtain ⟨focus, hmodel⟩ := (l.refocused_beginPress 1 .touch {} .zero 0).model
  -- the key of the press would be the only live one, but nothing is selected
  change ¬ (l.handle (.pressStart 1 .touch {} .zero 0)).control.Strands (.poll 600)
  rw [hstart]
  rintro ⟨k, -, -, hempties⟩
  have haction : (l.beginPress 1 .touch {} .zero 0).model.config.linkBehavior = .action := by
    rw [hmodel]
    rfl
  have hlive := (((empties_iff_of_action haction).1 hempties).2.1 k).2 rfl
  rw [hmodel] at hlive
  cases hlive

/-- Rows with actions in a list that replaces, the first of them selected. -/
def chosen (c : Collection Nat Unit) : SelectionModel Nat Unit :=
  (SelectionModel.new ⟨0, c⟩ { mode := .multiple, behavior := .replace }).withSelection
    (.keys (.ofList [1]))

theorem built_chosen (c : Collection Nat Unit) : SelectionModel.Built (chosen c) :=
  .withSelection (.new ⟨0, c⟩ { mode := .multiple, behavior := .replace }) (.keys (.ofList [1]))

/-- A finger on the first row. -/
def touched (c : Collection Nat Unit) : ListControl Nat Unit :=
  beginPress (.new (chosen c) { hasAction := true }) 1 .touch {} .zero 0

section Touched

variable {c : Collection Nat Unit} (hc : Collection.ofForest SelectionModel.twoRows = .ok c)

include hc

theorem canSelect_chosen : (chosen c).canSelect 1 := by
  change (SelectionModel.new ⟨0, c⟩ { mode := .multiple, behavior := .replace }).canSelect 1
  rw [SelectionModel.canSelect_new_iff hc]
  decide

theorem model_touched :
    (touched c).model = { chosen c with focus := { key := some 1, inside := true } } :=
  if_pos (SelectionModel.contains_of_canSelect (canSelect_chosen hc))

theorem canSelect_touched : (touched c).model.canSelect 1 := by
  rw [model_touched hc]
  exact canSelect_chosen hc

theorem steady_touched : (touched c).model.Steady := by
  rw [model_touched hc]
  exact ⟨rfl, rfl, (built_chosen c).consistent.knows rfl⟩

theorem settled_touched : (touched c).model.Settled := by
  rw [model_touched hc]
  intro htoggle
  cases htoggle

theorem mem_liveKeys_touched (x : Nat) : x ∈ (touched c).model.liveKeys.items ↔ x = 1 := by
  have hstored : (chosen c).selection = .keys ((KeySet.ofList [1]).filter (chosen c).canSelect) :=
    rfl
  have hlive : (touched c).model.liveKeys = (chosen c).liveKeys := by
    rw [model_touched hc]
    rfl
  have hk := canSelect_chosen hc
  rw [hlive, SelectionModel.liveKeys_of_keys hstored]
  simp only [KeySet.items_filter, List.mem_filter, KeySet.mem_items_ofList, List.mem_singleton]
  constructor
  · exact fun h => h.1.1
  · rintro rfl
    exact ⟨⟨rfl, hk⟩, hk⟩

theorem allowsLongPress_touched : (touched c).allowsLongPress 1 := by
  have hselects : (touched c).allowsSelection 1 :=
    allowsSelection_of_canSelect (canSelect_touched hc)
  have hactions : (touched c).allowsActions 1 :=
    allowsActions_iff.2 ⟨reaches_of_allowsSelection hselects, Or.inl rfl⟩
  have hreplaces : (touched c).model.behavior = .replace := by
    rw [model_touched hc]
    rfl
  rw [allowsLongPress, hasAction, hasSecondaryAction, hselects, hactions, hreplaces]
  simp

theorem strands_touched : (touched c).Strands (.poll 600) := by
  refine ⟨1, poll_finger, allowsLongPress_touched hc, ?_⟩
  have hconfig : (touched c).model.config = { mode := .multiple, behavior := .replace } := by
    rw [model_touched hc]
    rfl
  have hshift : (touched c).pressModifiers.shift = false := rfl
  rw [empties_iff_of_action (by rw [hconfig]), hconfig, hshift]
  exact ⟨rfl, mem_liveKeys_touched hc, by simp⟩

end Touched

/-- A long press on the only selected row takes the selection away, and the list goes on toggling. -/
theorem long_press_strands :
    ∃ c, Collection.ofForest SelectionModel.twoRows = .ok c ∧
      SelectionModel.Built (chosen c) ∧ (chosen c).controlled = false ∧
      (chosen c).config.behavior = .replace ∧
      let l := ListControl.new (chosen c) { hasAction := true }
      let held := l.run [.pressStart 1 .touch {} .zero 0, .poll 600]
      held.model.behavior = .toggle ∧ held.model.selection.isEmpty = true := by
  obtain ⟨c, hc⟩ := Collection.exists_ofForest_ok_iff.2
    (show SelectionModel.twoRows.keys.Nodup by decide)
  refine ⟨c, hc, built_chosen c, rfl, rfl, ?_⟩
  intro l held
  have hstart : l.pressStart 1 .touch {} .zero 0 = (touched c).answer .done :=
    pressStart_of_canSelect (canSelect_chosen hc) rfl
  have hheld : held = ((touched c).poll 600).control := by
    change ((l.pressStart 1 .touch {} .zero 0).control.poll 600).control = _
    rw [hstart]
    rfl
  have hunsettled : ¬ held.model.Settled := by
    rw [hheld, settled_poll_iff (steady_touched hc) (settled_touched hc), Classical.not_not]
    exact strands_touched hc
  obtain ⟨htoggle, hsome⟩ := Classical.not_imp.1 hunsettled
  exact ⟨htoggle, by simpa using hsome⟩

end ListControl

end Listbox
