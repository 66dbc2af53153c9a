import Listbox.Proofs.Announcement
import Listbox.Proofs.Range

set_option autoImplicit false

/-! # An owner that takes everything over

A model with an owner stores nothing by itself. An owner that hands back every proposal at once
makes it follow a model without one, but for one thing: a gesture that leaves the selected keys as
they are is not announced, so the ends of the range that it moves are moved only where there is no
owner. The two models hold the same keys until a range is stretched from ends that have come apart,
and comes out differently.

What two models propose is compared once, for `Peers`, which look alike to every gesture but a
stretch. A step of the comparison and an induction on the gestures do the rest. -/

universe u v

namespace Listbox

namespace Selection

variable {K : Type u} {sel next last : Selection K}

theorem alike_iff :
    sel.Alike next ↔ (sel = .all ∧ next = .all) ∨
      ∃ s t, sel = .keys s ∧ next = .keys t ∧ s.SameMembers t := by
  cases sel <;> cases next <;> simp [Alike]

theorem Alike.symm (h : sel.Alike next) : next.Alike sel := by
  rcases alike_iff.1 h with ⟨rfl, rfl⟩ | ⟨s, t, rfl, rfl, hsame⟩
  · trivial
  · exact fun k => (hsame k).symm

theorem Alike.trans (h : sel.Alike next) (h' : next.Alike last) : sel.Alike last := by
  rcases alike_iff.1 h with ⟨rfl, rfl⟩ | ⟨s, t, rfl, rfl, hsame⟩
  · exact h'
  · cases last with
    | all => exact h'
    | keys _ => exact fun k => (hsame k).trans (h' k)

/-- Both are everything, or both are key sets with the same members and the same ends. -/
def Matches (sel next : Selection K) : Prop :=
  sel.Alike next ∧
    ∀ s t, sel = .keys s → next = .keys t → s.anchor = t.anchor ∧ s.current = t.current

theorem Matches.refl (sel : Selection K) : sel.Matches sel := by
  refine ⟨.refl sel, ?_⟩
  rintro s t rfl hst
  cases hst
  exact ⟨rfl, rfl⟩

theorem matches_keys {s t : KeySet K} (h : s.SameMembers t) (hanchor : s.anchor = t.anchor)
    (hcurrent : s.current = t.current) : (Selection.keys s).Matches (.keys t) := by
  refine ⟨h, ?_⟩
  rintro _ _ ⟨⟩ ⟨⟩
  exact ⟨hanchor, hcurrent⟩

end Selection

namespace SelectionModel

variable {K : Type u} {T : Type v} [DecidableEq K] [Hashable K]
variable {m m' : SelectionModel K T} {g : Gesture K} {next : Selection K} {k : K}

/-! ## Peers -/

/-- Both models stretch a range to the same row. -/
inductive Stretches (m m' : SelectionModel K T) : Gesture K → Selection K → Selection K → Prop where
  | intro (k : K) (hmode : m.mode = .multiple) (hk : m.collection.contains k)
      (hall : m.selection ≠ .all) :
      Stretches m m' (.extend k) (.keys (m.stretched k)) (.keys (m'.stretched k))

/-- The models differ at most in who is told, and in the order and the ends of what they store. -/
structure Peers (m m' : SelectionModel K T) : Prop where
  edition : m'.edition = m.edition
  config : m'.config = m.config
  disabledKeys : m'.disabledKeys = m.disabledKeys
  focus : m'.focus = m.focus
  alike : m.selection.Alike m'.selection

namespace Peers

theorem symm (h : Peers m m') : Peers m' m :=
  ⟨h.edition.symm, h.config.symm, h.disabledKeys.symm, h.focus.symm, h.alike.symm⟩

theorem setting (h : Peers m m') :
    SameSetting { m with controlled := m'.controlled, observed := m'.observed } m' :=
  ⟨h.edition, h.config, h.disabledKeys, rfl, rfl, h.focus⟩

theorem mode (h : Peers m m') : m'.mode = m.mode := h.setting.mode

theorem collection (h : Peers m m') : m'.collection = m.collection := h.setting.collection

theorem canSelect (h : Peers m m') : m'.canSelect = m.canSelect := h.setting.canSelect

theorem selectableKeys (h : Peers m m') : m'.selectableKeys = m.selectableKeys :=
  h.setting.selectableKeys

theorem resolve (h : Peers m m') (sel : Selection K) : m'.resolve sel = m.resolve sel :=
  h.setting.resolve sel

theorem admissible (h : Peers m m') (sel : Selection K) : m'.admissible sel = m.admissible sel := by
  unfold SelectionModel.admissible
  rw [h.mode, h.canSelect]

theorem selection_eq_all_iff (h : Peers m m') : m'.selection = .all ↔ m.selection = .all := by
  rcases Selection.alike_iff.1 h.alike with ⟨hm, hm'⟩ | ⟨s, t, hm, hm', -⟩
  · exact iff_of_true hm' hm
  · rw [hm, hm']
    exact iff_of_false nofun nofun

theorem liveKeys (h : Peers m m') : m.liveKeys.SameMembers m'.liveKeys := by
  intro k
  rcases Selection.alike_iff.1 h.alike with ⟨hm, hm'⟩ | ⟨s, t, hm, hm', hsame⟩
  · simp only [SelectionModel.liveKeys, hm, hm', h.selectableKeys]
  · rw [liveKeys_of_keys hm, liveKeys_of_keys hm', h.canSelect]
    simp only [KeySet.items_filter, List.mem_filter, hsame k]

theorem selectedKeys (h : Peers m m') : m.selectedKeys.SameMembers m'.selectedKeys := by
  intro k
  unfold SelectionModel.selectedKeys
  rw [h.resolve]
  rcases Selection.alike_iff.1 h.alike with ⟨hm, hm'⟩ | ⟨s, t, hm, hm', hsame⟩
  · rw [hm, hm']
  · rw [hm, hm']
    simp only [SelectionModel.resolve, KeySet.items_filter, List.mem_filter, hsame k]

theorem isSelected (h : Peers m m') (k : K) : m'.isSelected k = m.isSelected k := by
  unfold SelectionModel.isSelected
  rw [h.mode]
  rcases Selection.alike_iff.1 h.alike with ⟨hm, hm'⟩ | ⟨s, t, hm, hm', hsame⟩
  · simp only [hm, hm', h.canSelect]
  · have hcontains : t.contains k = s.contains k := by
      rw [Bool.eq_iff_iff, KeySet.contains_iff, KeySet.contains_iff]
      exact (hsame k).symm
    simp only [hm, hm', h.collection, hcontains]

theorem isEmpty (h : Peers m m') : m'.isEmpty = m.isEmpty := by
  unfold SelectionModel.isEmpty
  rcases Selection.alike_iff.1 h.alike with ⟨hm, hm'⟩ | ⟨s, t, hm, hm', hsame⟩
  · simp only [hm, hm']
  · have hany : t.items.any m.collection.contains = s.items.any m.collection.contains := by
      rw [Bool.eq_iff_iff, List.any_eq_true, List.any_eq_true]
      simp only [hsame _]
    simp only [hm, hm', h.collection, hany]

theorem isSelectAll (h : Peers m m') : m'.isSelectAll = m.isSelectAll := by
  have hnodes : m'.selectableNodes = m.selectableNodes := by
    unfold selectableNodes
    rw [h.collection, h.canSelect]
  unfold SelectionModel.isSelectAll
  rw [h.isEmpty, hnodes]
  rcases Selection.alike_iff.1 h.alike with ⟨hm, hm'⟩ | ⟨s, t, hm, hm', hsame⟩
  · simp only [hm, hm']
  · have hcontains : ∀ k, (Std.HashSet.ofList t.items).contains k =
        (Std.HashSet.ofList s.items).contains k := by
      intro k
      rw [Bool.eq_iff_iff, Std.HashSet.contains_ofList, Std.HashSet.contains_ofList,
        List.contains_iff_mem, List.contains_iff_mem]
      exact (hsame k).symm
    simp only [hm, hm', hcontains]

/-- **Peers propose alike.** Whatever a model proposes, its peer proposes the same members with the
same ends, unless both stretch a range. -/
theorem proposes (h : Peers m m') (hnext : m.Proposes g next) :
    ∃ next', m'.Proposes g next' ∧ (next.Matches next' ∨ Stretches m m' g next next') := by
  have hcan : ∀ {k}, m.canSelect k → m'.canSelect k := fun {k} hk => h.canSelect ▸ hk
  have hselected : ∀ {k}, (m.mode = .single → m.isSelected k) →
      m'.mode = .single → m'.isSelected k := by
    intro k hk hmode
    rw [h.isSelected k]
    exact hk (h.mode ▸ hmode)
  have hsize : m'.liveKeys.size = m.liveKeys.size := (KeySet.size_eq_of_mem_iff h.liveKeys).symm
  cases hnext with
  | replace k hk => exact ⟨_, .replace k (hcan hk), Or.inl (.refl _)⟩
  | exchange k hk hmode hsel =>
    exact ⟨_, .exchange k (hcan hk) (h.mode ▸ hmode) (h.isSelected k ▸ hsel), Or.inl (.refl _)⟩
  | switchOff k hk hsel hlive hlast =>
    refine ⟨_, .switchOff k (hcan hk) (hselected hsel) ((h.liveKeys k).1 hlive) ?_, Or.inl ?_⟩
    · rw [hsize, h.config]
      exact hlast
    · refine Selection.matches_keys (fun x => ?_) rfl rfl
      simp only [KeySet.items_withRoles, KeySet.mem_items_erase, h.liveKeys x]
  | switchOn k hk hsel hlive =>
    refine ⟨_, .switchOn k (hcan hk) (hselected hsel) (fun h' => hlive ((h.liveKeys k).2 h')),
      Or.inl ?_⟩
    refine Selection.matches_keys (fun x => ?_) rfl rfl
    simp only [KeySet.items_withRoles, KeySet.mem_items_insert, h.liveKeys x]
  | extendSingle k hk hmode =>
    exact ⟨_, .extendSingle k (hcan hk) (h.mode ▸ hmode), Or.inl (.refl _)⟩
  | extendAll k hmode hk hall =>
    exact ⟨_, .extendAll k (h.mode ▸ hmode) (h.collection ▸ hk) (h.selection_eq_all_iff.2 hall),
      Or.inl (.refl _)⟩
  | stretch k hmode hk hall =>
    exact ⟨_, .stretch k (h.mode ▸ hmode) (h.collection ▸ hk)
      (fun h' => hall (h.selection_eq_all_iff.1 h')), Or.inr ⟨k, hmode, hk, hall⟩⟩
  | select ks hmode =>
    refine ⟨_, .select ks (h.mode ▸ hmode), Or.inl ?_⟩
    rw [h.admissible]
    exact .refl _
  | selectAll hmode => exact ⟨_, .selectAll (h.mode ▸ hmode), Or.inl (.refl _)⟩
  | clear hsome hempty =>
    exact ⟨_, .clear (h.isEmpty ▸ hsome) (h.config ▸ hempty), Or.inl (.refl _)⟩
  | allOff hall hsome hempty =>
    exact ⟨_, .allOff (h.isSelectAll ▸ hall) (h.isEmpty ▸ hsome) (h.config ▸ hempty),
      Or.inl (.refl _)⟩
  | allOn hall hmode =>
    exact ⟨_, .allOn (h.isSelectAll ▸ hall) (h.mode ▸ hmode), Or.inl (.refl _)⟩

/-- A gesture does nothing to either peer, or both propose something. -/
theorem gesture_cases (h : Peers m m') (g : Gesture K) :
    (m.gesture g = m.still ∧ m'.gesture g = m'.still) ∨
      ∃ next next', m.Proposes g next ∧ m'.Proposes g next' ∧
        (next.Matches next' ∨ Stretches m m' g next next') := by
  rcases SelectionModel.gesture_cases m g with hstill | ⟨next, hnext, -⟩
  · rcases SelectionModel.gesture_cases m' g with hstill' | ⟨next', hnext', -⟩
    · exact Or.inl ⟨hstill, hstill'⟩
    · obtain ⟨next, hnext, -⟩ := h.symm.proposes hnext'
      obtain ⟨next', hnext', hrel⟩ := h.proposes hnext
      exact Or.inr ⟨next, next', hnext, hnext', hrel⟩
  · obtain ⟨next', hnext', hrel⟩ := h.proposes hnext
    exact Or.inr ⟨next, next', hnext, hnext', hrel⟩

theorem overreaches_iff (h : Peers m m') : m'.Overreaches g ↔ m.Overreaches g := by
  unfold Overreaches
  simp only [h.mode, h.selection_eq_all_iff, h.collection, h.canSelect]

theorem of_sameSetting {n n' : SelectionModel K T} (h : Peers m m') (hn : SameSetting m n)
    (hn' : SameSetting m' n') (halike : n.selection.Alike n'.selection) : Peers n n' where
  edition := hn'.edition.trans (h.edition.trans hn.edition.symm)
  config := hn'.config.trans (h.config.trans hn.config.symm)
  disabledKeys := hn'.disabledKeys.trans (h.disabledKeys.trans hn.disabledKeys.symm)
  focus := hn'.focus.trans (h.focus.trans hn.focus.symm)
  alike := halike

end Peers

/-! ## What an owner hands back -/

/-- The model stores what it may. -/
structure Sound (m : SelectionModel K T) : Prop where
  admits : m.Admits m.selection
  allows : m.mode.Allows m.selection

theorem Sound.of_sameSetting (hs : SameSetting m m') (hadm : m.Admits m'.selection)
    (hallows : m.mode.Allows m'.selection) : m'.Sound :=
  ⟨hs.admits.2 hadm, hs.mode ▸ hallows⟩

/-- What a sound model stores comes to its own members. -/
theorem Sound.selectedKeys {s : KeySet K} (hm : m.Sound) (hs : m.selection.Alike (.keys s)) :
    m.selectedKeys.SameMembers s := by
  rcases Selection.alike_iff.1 hs with ⟨-, hall⟩ | ⟨t, s, hstored, ⟨⟩, hsame⟩
  · cases hall
  · have hadm := hm.admits
    rw [hstored] at hadm
    intro k
    rw [SelectionModel.selectedKeys, hstored, items_resolve_of_knows hadm.knows]
    exact hsame k

theorem admissible_all (h : m.mode.Allows (.all : Selection K)) : m.admissible .all = .all := by
  cases hmode : m.mode with
  | none | single =>
    rw [hmode] at h
    obtain ⟨s, hs, -⟩ := h
    cases hs
  | multiple => simp [admissible, hmode]

theorem admissible_keys {s : KeySet K} (h : m.mode.Allows (.keys s)) :
    m.admissible (.keys s) = .keys (s.filter m.canSelect) := by
  simp only [admissible]
  split
  · next k k' rest hmode hlive =>
    rw [hmode] at h
    obtain ⟨t, ht, hsize⟩ := h
    cases ht
    have hlength := Nat.le_trans (List.length_filter_le m.canSelect s.items) hsize
    rw [KeySet.items_filter] at hlive
    rw [hlive] at hlength
    simp at hlength
  · rfl

/-- What a model may store comes back from its owner with the same members. -/
theorem alike_admissible (hadm : m.Admits next) (hallows : m.mode.Allows next) :
    (m.admissible next).Alike next := by
  cases next with
  | all =>
    rw [admissible_all hallows]
    trivial
  | keys s =>
    rw [admissible_keys hallows]
    intro k
    rw [KeySet.items_filter, List.filter_eq_self.2 hadm]

/-- The model after a gesture, with an owner that hands back everything it is told. -/
def obey (m : SelectionModel K T) (g : Gesture K) : SelectionModel K T :=
  (m.gesture g).reports.foldl (fun m sel => (m.setControlled sel).model) (m.gesture g).model

theorem obey_of_still (h : m.gesture g = m.still) : m.obey g = m := by
  rw [obey, h]
  rfl

/-- **Obedience.** What is announced is handed back and stored, and what is not leaves no trace. -/
theorem obey_of_proposes (howned : m.controlled = true) (hheard : m.observed = true)
    (h : m.Proposes g next) :
    m.obey g =
      if m.differs next || m.config.allowRepeats then m.store (m.admissible next) else m := by
  rw [obey, h.gesture_eq, reports_propose, model_propose_of_controlled howned, hheard,
    Bool.and_true]
  split
  · rfl
  · rfl

/-- The gesture proposes something, and nobody is told. -/
def Unheard (m : SelectionModel K T) (g : Gesture K) : Prop :=
  ∃ next, m.Proposes g next ∧ (m.gesture g).reports = []

theorem not_unheard (hheard : m.observed = true) (hrepeats : m.config.allowRepeats = true) :
    ¬ m.Unheard g := by
  rintro ⟨next, hnext, hsilent⟩
  rw [hnext.gesture_eq, reports_propose, hrepeats, hheard, Bool.or_true] at hsilent
  cases hsilent

theorem obey_of_heard (howned : m.controlled = true) (hheard : m.observed = true)
    (h : m.Proposes g next) (hg : ¬ m.Unheard g) : m.obey g = m.store (m.admissible next) := by
  rw [obey_of_proposes howned hheard h]
  refine if_pos (Classical.byContradiction fun hsilent => hg ⟨next, h, ?_⟩)
  rw [h.gesture_eq, reports_propose, Bool.eq_false_iff.2 hsilent]
  rfl

theorem not_differs_of_alike (h : m.selection.Alike next) : ¬ m.differs next := by
  rw [differs_iff, not_or, Classical.not_not, Classical.not_not]
  rcases Selection.alike_iff.1 h with ⟨hm, rfl⟩ | ⟨s, t, hm, rfl, hsame⟩
  · exact ⟨fun k => by rw [selectedKeys, hm], congrArg Selection.isAll hm⟩
  · refine ⟨fun k => ?_, by rw [hm]; rfl⟩
    rw [selectedKeys, hm]
    simp only [resolve, KeySet.items_filter, List.mem_filter, hsame k]

/-- An owner does not hear of a gesture that changes no keys, unless repeats are asked for. -/
theorem obey_eq_self (howned : m.controlled = true) (hheard : m.observed = true)
    (hrepeats : m.config.allowRepeats = false) (h : m.Proposes g next)
    (halike : m.selection.Alike next) : m.obey g = m := by
  rw [obey_of_proposes howned hheard h, if_neg]
  rw [Bool.or_eq_true, not_or, hrepeats]
  exact ⟨not_differs_of_alike halike, Bool.false_ne_true⟩

theorem sameSetting_obey (howned : m.controlled = true) (hheard : m.observed = true)
    (g : Gesture K) : SameSetting m (m.obey g) := by
  rcases gesture_cases m g with hstill | ⟨next, hnext, -⟩
  · rw [obey_of_still hstill]
    exact .refl m
  · rw [obey_of_proposes howned hheard hnext]
    split
    · exact sameSetting_store m _
    · exact .refl m

/-- With an obedient owner a model stores the members that it proposes. -/
theorem alike_obey (howned : m.controlled = true) (hheard : m.observed = true) (hm : m.Sound)
    (h : m.Proposes g next) (hg : ¬ m.Overreaches g) : (m.obey g).selection.Alike next := by
  rw [obey_of_proposes howned hheard h]
  split
  · exact alike_admissible (h.admits hg) (h.allows hm.allows)
  · next hsilent =>
    rw [Bool.or_eq_true, not_or] at hsilent
    exact alike_of_not_differs hm.admits.knows h.knows hsilent.1

theorem Sound.obey (hm : m.Sound) (howned : m.controlled = true) (hheard : m.observed = true)
    (g : Gesture K) : (m.obey g).Sound := by
  rcases gesture_cases m g with hstill | ⟨next, hnext, -⟩
  · rw [obey_of_still hstill]
    exact hm
  · rw [obey_of_proposes howned hheard hnext]
    split
    · exact .of_sameSetting (sameSetting_store m _) (admits_admissible next)
        (allows_admissible next)
    · exact hm

theorem Sound.gesture (hm : m.Sound) (hfree : m.controlled = false) (hg : ¬ m.Overreaches g) :
    (m.gesture g).model.Sound := by
  have setting := sameSetting_gesture m g
  rcases gesture_cases m g with hstill | ⟨next, hnext, -⟩
  · rw [hstill]
    exact hm
  · have hstored := hnext.selection_gesture hfree
    exact .of_sameSetting setting (hstored ▸ hnext.admits hg) (hstored ▸ hnext.allows hm.allows)

/-! ## One gesture -/

/-- The first model has no owner and the second one has, and so far they hold the same keys. -/
structure Follows (m o : SelectionModel K T) : Prop where
  peers : Peers m o
  free : m.controlled = false
  owned : o.controlled = true
  heard : o.observed = true
  sound : m.Sound
  soundOwned : o.Sound

/-- The same keys are selected in both models after the gesture. -/
def Agrees (m o : SelectionModel K T) (g : Gesture K) : Prop :=
  (m.gesture g).model.selectedKeys.SameMembers (o.obey g).selectedKeys

/-- The gesture stretches a range, and the ends from which the models stretch it matter. -/
def Parts (m o : SelectionModel K T) (g : Gesture K) : Prop :=
  ∃ k, g = .extend k ∧ m.mode = .multiple ∧ m.collection.contains k ∧ m.selection ≠ .all ∧
    ¬ (m.stretched k).SameMembers (o.stretched k)

namespace Follows

variable {o : SelectionModel K T}

theorem step (h : Follows m o) (hg : ¬ m.Overreaches g) (hparts : ¬ Parts m o g) :
    Follows (m.gesture g).model (o.obey g) := by
  have hsetting := sameSetting_gesture m g
  have hsettingOwned := sameSetting_obey h.owned h.heard g
  refine ⟨h.peers.of_sameSetting hsetting hsettingOwned ?_, hsetting.controlled.trans h.free,
    hsettingOwned.controlled.trans h.owned, hsettingOwned.observed.trans h.heard,
    h.sound.gesture h.free hg, h.soundOwned.obey h.owned h.heard g⟩
  rcases h.peers.gesture_cases g with ⟨hstill, hstill'⟩ | ⟨next, next', hnext, hnext', hrel⟩
  · rw [hstill, obey_of_still hstill']
    exact h.peers.alike
  · have hstored := hnext.selection_gesture h.free
    have hobeyed := alike_obey h.owned h.heard h.soundOwned hnext'
      (fun hg' => hg (h.peers.overreaches_iff.1 hg'))
    have halike : next.Alike next' := by
      rcases hrel with hmatches | ⟨k, hmode, hk, hall⟩
      · exact hmatches.1
      · exact Classical.not_not.1 fun hother => hparts ⟨k, rfl, hmode, hk, hall, hother⟩
    rw [hstored]
    exact halike.trans hobeyed.symm

theorem not_agrees (h : Follows m o) (hg : ¬ m.Overreaches g) (hparts : Parts m o g) :
    ¬ Agrees m o g := by
  obtain ⟨k, rfl, hmode, hk, hall, hother⟩ := hparts
  have hnext := Proposes.stretch k hmode hk hall
  have hnext' : o.Proposes (.extend k) (.keys (o.stretched k)) := by
    refine .stretch k (h.peers.mode ▸ hmode) (h.peers.collection ▸ hk) fun h' => ?_
    exact hall (h.peers.selection_eq_all_iff.1 h')
  have hstored : (m.gesture (.extend k)).model.selection = .keys (m.stretched k) :=
    hnext.selection_gesture h.free
  have hfree := (h.sound.gesture h.free hg).selectedKeys (s := m.stretched k) (by
    rw [hstored]
    exact .refl _)
  have howned := (h.soundOwned.obey h.owned h.heard (.extend k)).selectedKeys
    (alike_obey h.owned h.heard h.soundOwned hnext'
      (fun hg' => hg (h.peers.overreaches_iff.1 hg')))
  exact fun hagrees => hother fun x => ((hfree x).symm.trans (hagrees x)).trans (howned x)

theorem agrees (h : Follows m o) (hg : ¬ m.Overreaches g) (hparts : ¬ Parts m o g) :
    Agrees m o g :=
  (h.step hg hparts).peers.selectedKeys

end Follows

/-! ## Ends that are announced

As long as the owner hears of every gesture, it hands back every end, and the ranges stay the
same. -/

/-- The second model follows the first one, and its ranges have the same ends. -/
structure Abreast (m o : SelectionModel K T) : Prop where
  follows : Follows m o
  anchor : o.liveKeys.anchor = m.liveKeys.anchor
  current : o.liveKeys.current = m.liveKeys.current

namespace Abreast

variable {o : SelectionModel K T}

theorem rangeStart (h : Abreast m o) (k : K) :
    o.rangeStart o.liveKeys k = m.rangeStart m.liveKeys k := by
  unfold SelectionModel.rangeStart
  rw [h.anchor, h.follows.peers.focus, h.follows.peers.collection]

theorem stretched (h : Abreast m o) (k : K) : (m.stretched k).SameMembers (o.stretched k) := by
  intro x
  simp only [mem_stretched_iff, h.rangeStart, h.current, h.follows.peers.canSelect,
    h.follows.peers.setting.isBetween, h.follows.peers.liveKeys x]
  rfl

theorem not_parts (h : Abreast m o) : ¬ Parts m o g :=
  fun ⟨k, _, _, _, _, hother⟩ => hother (h.stretched k)

/-- What has been handed back has the ends of what was proposed. -/
theorem ends_liveKeys {o' : SelectionModel K T} {next' : Selection K} (hm : m.selection = next)
    (ho : o'.selection = o.admissible next') (hallows : o.mode.Allows next')
    (hcan : o.canSelect = m.canSelect) (hcan' : o'.canSelect = m.canSelect)
    (h : next.Matches next') :
    o'.liveKeys.anchor = m.liveKeys.anchor ∧ o'.liveKeys.current = m.liveKeys.current := by
  obtain ⟨halike, hends⟩ := h
  rcases Selection.alike_iff.1 halike with ⟨rfl, rfl⟩ | ⟨s, t, rfl, rfl, -⟩
  · rw [admissible_all hallows] at ho
    simp only [liveKeys, hm, ho]
    exact ⟨rfl, rfl⟩
  · obtain ⟨hanchor, hcurrent⟩ := hends s t rfl rfl
    rw [admissible_keys hallows] at ho
    rw [liveKeys_of_keys ho, liveKeys_of_keys hm, hcan, hcan']
    simp [hanchor, hcurrent]

theorem step (h : Abreast m o) (hg : ¬ m.Overreaches g) (hheard : ¬ o.Unheard g) :
    Abreast (m.gesture g).model (o.obey g) := by
  have hfollows := h.follows.step hg h.not_parts
  have setting := sameSetting_gesture m g
  rcases h.follows.peers.gesture_cases g with ⟨hstill, hstill'⟩ | ⟨next, next', hnext, hnext', hrel⟩
  · refine ⟨hfollows, ?_, ?_⟩
    · rw [hstill, obey_of_still hstill']
      exact h.anchor
    · rw [hstill, obey_of_still hstill']
      exact h.current
  · have hmatches : next.Matches next' := by
      rcases hrel with hmatches | ⟨k, -, -, -⟩
      · exact hmatches
      · exact Selection.matches_keys (h.stretched k) (congrArg some (h.rangeStart k).symm) rfl
    have hstored := hnext.selection_gesture h.follows.free
    have hobeyed : (o.obey g).selection = o.admissible next' := by
      rw [obey_of_heard h.follows.owned h.follows.heard hnext' hheard]
      rfl
    obtain ⟨hanchor, hcurrent⟩ := ends_liveKeys hstored hobeyed
      (hnext'.allows h.follows.soundOwned.allows)
      (h.follows.peers.canSelect.trans setting.canSelect.symm) hfollows.peers.canSelect hmatches
    exact ⟨hfollows, hanchor, hcurrent⟩

end Abreast

/-! ## Many gestures -/

/-- The property holds before each gesture, of a model without an owner, one with an obedient owner,
and the gesture. -/
def Together (p : SelectionModel K T → SelectionModel K T → Gesture K → Prop)
    (m o : SelectionModel K T) : List (Gesture K) → Prop
  | [] => True
  | g :: gs => p m o g ∧ Together p (m.gesture g).model (o.obey g) gs

section Runs

variable {o : SelectionModel K T} {gs : List (Gesture K)}

theorem Follows.together_agrees_iff (h : Follows m o)
    (hslip : Together (fun m _ g => ¬ m.Overreaches g) m o gs) :
    Together Agrees m o gs ↔ Together (fun m o g => ¬ Parts m o g) m o gs := by
  induction gs generalizing m o with
  | nil => exact Iff.rfl
  | cons g gs ih =>
    obtain ⟨hg, hrest⟩ := hslip
    by_cases hparts : Parts m o g
    · exact iff_of_false (fun hall => h.not_agrees hg hparts hall.1) (fun hall => hall.1 hparts)
    · exact and_congr (iff_of_true (h.agrees hg hparts) hparts) (ih (h.step hg hparts) hrest)

theorem Abreast.together_agrees (h : Abreast m o)
    (hslip : Together (fun m _ g => ¬ m.Overreaches g) m o gs)
    (hheard : Together (fun _ o g => ¬ o.Unheard g) m o gs) : Together Agrees m o gs := by
  induction gs generalizing m o with
  | nil => trivial
  | cons g gs ih =>
    obtain ⟨hg, hrest⟩ := hslip
    obtain ⟨hannounced, hannouncedRest⟩ := hheard
    exact ⟨h.follows.agrees hg h.not_parts, ih (h.step hg hannounced) hrest hannouncedRest⟩

/-- If repeats are asked for, the owner hears of every gesture. -/
theorem together_not_unheard (howned : o.controlled = true) (hheard : o.observed = true)
    (hrepeats : o.config.allowRepeats = true) :
    Together (fun _ o g => ¬ o.Unheard g) m o gs := by
  induction gs generalizing m o with
  | nil => trivial
  | cons g gs ih =>
    have hsetting := sameSetting_obey howned hheard g
    exact ⟨not_unheard hheard hrepeats, ih (hsetting.controlled.trans howned)
      (hsetting.observed.trans hheard) (hsetting.config ▸ hrepeats)⟩

/-- Where at most one row may be selected, nothing is stretched. -/
theorem together_not_parts (hmode : m.mode ≠ .multiple) :
    Together (fun m o g => ¬ Parts m o g) m o gs := by
  induction gs generalizing m o with
  | nil => trivial
  | cons g gs ih =>
    refine ⟨fun ⟨_, _, hmode', _⟩ => hmode hmode', ih ?_⟩
    rw [(sameSetting_gesture m g).mode]
    exact hmode

end Runs

theorem abreast_start (hfree : m.controlled = false) (sel : Selection K) :
    Abreast (m.withSelection sel) ((m.controlledBy sel).setObserved true) where
  follows :=
    { peers := ⟨rfl, rfl, rfl, rfl, .refl _⟩
      free := hfree
      owned := rfl
      heard := rfl
      sound := ⟨admits_admissible sel, allows_admissible sel⟩
      soundOwned := ⟨admits_admissible sel, allows_admissible sel⟩ }
  anchor := rfl
  current := rfl

/-- **Owners.** A model without an owner and one whose owner hands back every proposal start with
the same selection and go through the same gestures, none of which makes a range out of everything
towards a row that cannot be selected. They hold the same keys after each of them exactly if no
range comes out differently because its ends have moved in the first model only. So they do as long
as the owner hears of every gesture, which it does if repeats are asked for; and they always do
where at most one row may be selected. -/
theorem obey_agrees_iff (hfree : m.controlled = false) (sel : Selection K) (gs : List (Gesture K))
    (hslip : Together (fun m _ g => ¬ m.Overreaches g) (m.withSelection sel)
      ((m.controlledBy sel).setObserved true) gs) :
    let free := m.withSelection sel
    let owned := (m.controlledBy sel).setObserved true
    (Together Agrees free owned gs ↔ Together (fun m o g => ¬ Parts m o g) free owned gs) ∧
      (Together (fun _ o g => ¬ o.Unheard g) free owned gs → Together Agrees free owned gs) ∧
      (m.config.allowRepeats = true ∨ m.mode ≠ .multiple → Together Agrees free owned gs) := by
  intro free owned
  have hstart : Abreast free owned := abreast_start hfree sel
  have hiff := hstart.follows.together_agrees_iff hslip
  refine ⟨hiff, hstart.together_agrees hslip, ?_⟩
  rintro (hrepeats | hmode)
  · exact hstart.together_agrees hslip (together_not_unheard rfl rfl hrepeats)
  · exact hiff.2 (together_not_parts hmode)

/-- Three enabled rows. -/
def openRows : Forest (Entry Nat Unit) :=
  .tree (.item 1 "one" ()) .nil (.tree (.item 2 "two" ()) .nil
    (.tree (.item 3 "three" ()) .nil .nil))

section OpenRows

variable {c : Collection Nat Unit} (hc : Collection.ofForest openRows = .ok c)

include hc

theorem canSelect_openRows (repeats : Bool) {k : Nat} (hk : k ∈ [1, 2, 3]) :
    (SelectionModel.new ⟨0, c⟩ { mode := .multiple, allowRepeats := repeats }).canSelect k := by
  rw [canSelect_new_iff hc]
  have hrows : ∀ k ∈ [1, 2, 3], ∃ n ∈ openRows.nodes,
      n.key = k ∧ n.isItem = true ∧ n.disabled = false ∧ (n.isLink = true → False) := by decide
  obtain ⟨n, hn, hkey, hitem, henabled, hlink⟩ := hrows k hk
  exact ⟨nofun, nofun, n, hn, hkey, hitem, henabled, fun h => (hlink h).elim⟩

/-- Every row can be selected, so no gesture overreaches. -/
theorem not_overreaches_openRows (repeats : Bool) :
    let m := SelectionModel.new ⟨0, c⟩ { mode := .multiple, allowRepeats := repeats }
    let sel := Selection.keys (.ofList [1])
    Together (fun m _ g => ¬ m.Overreaches g) (m.withSelection sel)
      ((m.controlledBy sel).setObserved true) [.replace 1, .extend 3] := by
  refine ⟨?_, ?_, trivial⟩
  · rintro ⟨_, ⟨⟩, -⟩
  · rintro ⟨_, ⟨⟩, -, -, -, hcan⟩
    rw [(sameSetting_gesture _ _).canSelect] at hcan
    exact hcan (canSelect_openRows hc repeats (by decide))

/-- Selecting the first row makes it both ends of the range, and the range goes on from there. -/
theorem mem_stretched_single {m : SelectionModel Nat Unit}
    (hm : SameSetting (SelectionModel.new ⟨0, c⟩ { mode := .multiple }) m)
    (hsel : m.selection = .keys (.single 1)) : 2 ∈ (m.stretched 3).items := by
  have hone : m.canSelect 1 := hm.canSelect ▸ canSelect_openRows hc false (by decide)
  have htwo : m.canSelect 2 := hm.canSelect ▸ canSelect_openRows hc false (by decide)
  have hanchor : m.liveKeys.anchor = some 1 := by
    rw [liveKeys_of_keys hsel, KeySet.anchor_filter]
    exact if_pos hone
  have hrows : Collection.ofForest openRows = .ok m.collection := hm.collection ▸ hc
  refine mem_stretched_iff.2 (Or.inr ⟨htwo, ?_⟩)
  rw [rangeStart_of_anchor hanchor (contains_of_canSelect hone)]
  exact (isBetween_iff_of_ofForest (i := 0) (j := 2) (n := 1) hrows rfl rfl rfl).2 (by decide)

/-- Without ends to go on from, the range starts where it goes to. -/
theorem not_mem_stretched {m : SelectionModel Nat Unit} {s : KeySet Nat}
    (hm : m.collection = c) (hfocus : m.focus.key = none) (hsel : m.selection = .keys s)
    (hitems : 2 ∉ s.items) (hanchor : s.anchor = none) : 2 ∉ (m.stretched 3).items := by
  have hstart : m.rangeStart m.liveKeys 3 = 3 := by
    rw [liveKeys_of_keys hsel]
    simp [rangeStart, hanchor, hfocus]
  have hrows : Collection.ofForest openRows = .ok m.collection := hm ▸ hc
  rw [mem_stretched_iff, hstart, liveKeys_of_keys hsel, KeySet.items_filter]
  rintro (⟨hmem, -⟩ | ⟨-, hbetween⟩)
  · exact hitems (List.mem_filter.1 hmem).1
  · have hinside :=
      (isBetween_iff_of_ofForest (i := 2) (j := 2) (n := 1) hrows rfl rfl rfl).1 hbetween
    exact absurd hinside (by decide)

end OpenRows

/-- With repeats, the owner hears that the first row is both ends of the range. -/
theorem obey_agrees_openRows :
    ∃ c, Collection.ofForest openRows = .ok c ∧
      let m := SelectionModel.new ⟨0, c⟩ { mode := .multiple, allowRepeats := true }
      let free := m.withSelection (.keys (.ofList [1]))
      let owned := (m.controlledBy (.keys (.ofList [1]))).setObserved true
      m.controlled = false ∧
        Together (fun m _ g => ¬ m.Overreaches g) free owned [.replace 1, .extend 3] ∧
        Together Agrees free owned [.replace 1, .extend 3] := by
  obtain ⟨c, hc⟩ := Collection.exists_ofForest_ok_iff.2 (show openRows.keys.Nodup by decide)
  have hslip := not_overreaches_openRows hc true
  exact ⟨c, hc, rfl, hslip, (obey_agrees_iff rfl _ _ hslip).2.2 (Or.inl rfl)⟩

/-- Without repeats, the owner does not hear it, and the range to the last row starts elsewhere. -/
theorem owner_misses_ends :
    ∃ c, Collection.ofForest openRows = .ok c ∧
      let m := SelectionModel.new ⟨0, c⟩ { mode := .multiple }
      let free := m.withSelection (.keys (.ofList [1]))
      let owned := (m.controlledBy (.keys (.ofList [1]))).setObserved true
      m.controlled = false ∧
        Together (fun m _ g => ¬ m.Overreaches g) free owned [.replace 1, .extend 3] ∧
        ¬ Together Agrees free owned [.replace 1, .extend 3] := by
  obtain ⟨c, hc⟩ := Collection.exists_ofForest_ok_iff.2 (show openRows.keys.Nodup by decide)
  let m := SelectionModel.new ⟨0, c⟩ { mode := .multiple }
  let sel := Selection.keys (.ofList [1])
  let free := m.withSelection sel
  let owned := (m.controlledBy sel).setObserved true
  have hslip := not_overreaches_openRows hc false
  have hone : m.canSelect 1 := canSelect_openRows hc false (by decide)
  have hthree : m.canSelect 3 := canSelect_openRows hc false (by decide)
  have hstored : owned.selection = .keys (KeySet.filter (.ofList [1]) m.canSelect) :=
    admissible_keys (m := m) trivial
  have hitems : (KeySet.filter (.ofList [1]) m.canSelect).items = [1] :=
    List.filter_eq_self.2 fun k hk => List.mem_singleton.1 hk ▸ hone
  refine ⟨c, hc, rfl, hslip, ?_⟩
  rw [(abreast_start rfl sel).follows.together_agrees_iff hslip]
  rintro ⟨-, hnot, -⟩
  -- the gesture moves the ends of the range only where there is no owner
  have hfree : (free.gesture (.replace 1)).model.selection = .keys (.single 1) :=
    Proposes.selection_gesture (m := free) (.replace 1 hone) rfl
  have howned : owned.obey (.replace 1) = owned := by
    refine obey_eq_self rfl rfl rfl (.replace 1 hone) ?_
    rw [hstored]
    exact fun k => by rw [hitems]; rfl
  have hstart : SameSetting m free := ⟨rfl, rfl, rfl, rfl, rfl, rfl⟩
  have hsetting := hstart.trans (sameSetting_gesture free (.replace 1))
  refine hnot ⟨3, rfl, hsetting.mode, ?_, ?_, fun hsame => ?_⟩
  · rw [hsetting.collection]
    exact contains_of_canSelect hthree
  · exact fun h => by rw [hfree] at h; cases h
  · have htwo := (hsame 2).1 (mem_stretched_single hc hsetting hfree)
    rw [howned] at htwo
    exact not_mem_stretched hc rfl rfl hstored (by rw [hitems]; decide) rfl htwo

end SelectionModel

end Listbox
