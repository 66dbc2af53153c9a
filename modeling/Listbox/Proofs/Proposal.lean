import Listbox.Collection.Lemmas
import Listbox.KeySet.Lemmas
import Listbox.SelectionModel.Operation

set_option autoImplicit false

/-! # What gestures propose

A gesture changes nothing or proposes one selection. `Proposes` lists every selection that a gesture
can propose, each with the conditions under which it does, and `gesture_cases` says that the list is
complete. What becomes of a proposal is said once, by one equation for the selection that is stored
and one for what is announced. Later modules argue about proposals and never open a gesture.

Three properties of a selection matter: whether all its keys can be selected (`Admits`), whether
they are at least in the collection (`Knows`), and whether the mode allows so many (`Allows`). -/

universe u v

namespace Listbox

theorem Selection.isAll_iff {K : Type u} {sel : Selection K} : sel.isAll ↔ sel = .all := by
  cases sel with
  | all => exact iff_of_true rfl rfl
  | keys s => exact iff_of_false Bool.false_ne_true nofun

theorem Selection.not_isEmpty_of_mem {K : Type u} {s : KeySet K} {k : K} (h : k ∈ s.items) :
    (Selection.keys s).isEmpty = false := by
  change s.isEmpty = false
  rw [Bool.eq_false_iff, ne_eq, KeySet.isEmpty_iff]
  exact List.ne_nil_of_mem h

/-- The selections of a mode: nothing, at most one key, or whatever there is. -/
def SelectionMode.Allows {K : Type u} (mode : SelectionMode) (sel : Selection K) : Prop :=
  match mode with
  | .none => ∃ s, sel = .keys s ∧ s.items = []
  | .single => ∃ s, sel = .keys s ∧ s.size ≤ 1
  | .multiple => True

theorem SelectionMode.allows_empty {K : Type u} (mode : SelectionMode) :
    mode.Allows (.empty : Selection K) := by
  cases mode with
  | none => exact ⟨.empty, rfl, rfl⟩
  | single => exact ⟨.empty, rfl, Nat.zero_le 1⟩
  | multiple => trivial

namespace SelectionModel

variable {K : Type u} {T : Type v} [DecidableEq K] [Hashable K]
variable {m m' : SelectionModel K T} {g : Gesture K} {next sel : Selection K} {k : K}

/-- All keys of a selection can be selected. -/
def Admits (m : SelectionModel K T) : Selection K → Prop
  | .all => True
  | .keys s => ∀ k ∈ s.items, m.canSelect k

/-- All keys of a selection are in the collection. -/
def Knows (m : SelectionModel K T) : Selection K → Prop
  | .all => True
  | .keys s => ∀ k ∈ s.items, m.collection.contains k

/-! ## Rows that can be selected -/

/-- **Which rows can be selected.** In a mode with selection: the enabled items that are not links
only for following. -/
theorem canSelect_iff :
    m.canSelect k ↔ m.mode ≠ .none ∧ m.disabledKeys.contains k = false ∧
      ∃ n ∈ m.collection.toList, n.key = k ∧ n.isItem = true ∧ n.disabled = false ∧
        (n.isLink = true → m.config.linkBehavior ≠ .override) := by
  unfold canSelect
  cases hn : m.collection.get? k with
  | none =>
    refine iff_of_false (by simp) ?_
    rintro ⟨-, -, n, hmem, hkey, -⟩
    have hget := Collection.get?_eq_some_iff.2 ⟨hmem, hkey⟩
    rw [hn] at hget
    cases hget
  | some n =>
    -- keys are distinct, so the node found under `k` is the only one with that key
    have hother : ∀ n', n' ∈ m.collection.toList ∧ n'.key = k ↔ n = n' := by
      intro n'
      rw [← Collection.get?_eq_some_iff, hn, Option.some.injEq]
    simp only [← and_assoc, hother]
    simp [and_assoc, Decidable.imp_iff_not_or]

/-- Before the first operation, which rows can be selected is read off the forest. -/
theorem canSelect_new_iff {f : Forest (Entry K T)} {e : Edition K T} {config : SelectionConfig K}
    (he : Collection.ofForest f = .ok e.collection) :
    (new e config).canSelect k ↔ config.mode ≠ .none ∧ k ∉ config.disabledKeys ∧
      ∃ n ∈ f.nodes, n.key = k ∧ n.isItem = true ∧ n.disabled = false ∧
        (n.isLink = true → config.linkBehavior ≠ .override) := by
  rw [canSelect_iff, ← Collection.toList_ofForest he]
  refine and_congr_right fun _ => and_congr_left fun _ => ?_
  change (Std.HashSet.ofList config.disabledKeys).contains k = false ↔ _
  rw [Bool.eq_false_iff, ne_eq, Std.HashSet.contains_ofList, List.contains_iff_mem]

theorem contains_of_canSelect (h : m.canSelect k) : m.collection.contains k := by
  obtain ⟨-, -, n, hn, hkey, -⟩ := canSelect_iff.1 h
  exact Collection.contains_iff_mem_keys.2 (List.mem_map.2 ⟨n, hn, hkey⟩)

theorem mode_ne_none_of_canSelect (h : m.canSelect k) : m.mode ≠ .none := (canSelect_iff.1 h).1

theorem canSelect_of_mem_selectableKeys (h : k ∈ m.selectableKeys) : m.canSelect k := by
  obtain ⟨n, hn, rfl⟩ := List.mem_map.1 h
  exact (List.mem_filter.1 hn).2

theorem canSelect_of_mem_liveKeys (h : k ∈ m.liveKeys.items) : m.canSelect k := by
  unfold liveKeys at h
  split at h
  · rw [KeySet.ofListHashed_eq_ofList, KeySet.mem_items_ofList] at h
    exact canSelect_of_mem_selectableKeys h
  · rw [KeySet.items_filter] at h
    exact (List.mem_filter.1 h).2

theorem liveKeys_of_keys {s : KeySet K} (h : m.selection = .keys s) :
    m.liveKeys = s.filter m.canSelect := by
  simp [liveKeys, h]

/-- A range can only stretch to rows that can be selected. -/
theorem canSelect_of_mem_stretched {t : K} (h : k ∈ (m.stretched t).items) : m.canSelect k := by
  simp only [stretched, KeySet.items_withRoles, KeySet.mem_items_insertMany, List.mem_filter] at h
  rcases h with h | ⟨-, h⟩
  · split at h
    · exact canSelect_of_mem_liveKeys (KeySet.mem_items_eraseMany.1 h).1
    · exact canSelect_of_mem_liveKeys h
  · exact h

/-- A row that is selected and can be is among the live ones. -/
theorem mem_liveKeys_of_isSelected (hk : m.canSelect k) (h : m.isSelected k) :
    k ∈ m.liveKeys.items := by
  unfold isSelected at h
  unfold liveKeys
  split
  · rw [KeySet.ofListHashed_eq_ofList, KeySet.mem_items_ofList]
    have hc := Collection.contains_iff_mem_keys.1 (contains_of_canSelect hk)
    obtain ⟨n, hn, rfl⟩ := List.mem_map.1 hc
    exact List.mem_map.2 ⟨n, List.mem_filter.2 ⟨hn, hk⟩, rfl⟩
  · next s hs =>
    have hmem : k ∈ s.items := by
      simp only [hs, Bool.and_eq_true, KeySet.contains_iff] at h
      exact h.2.1
    rw [KeySet.items_filter]
    exact List.mem_filter.2 ⟨hmem, hk⟩

/-! ## Selections that may be stored -/

theorem Admits.knows (h : m.Admits sel) : m.Knows sel := by
  cases sel with
  | all => trivial
  | keys s => exact fun k hk => contains_of_canSelect (h k hk)

theorem admits_empty : m.Admits .empty := fun k hk => by cases hk

theorem admits_filter (s : KeySet K) : m.Admits (.keys (s.filter m.canSelect)) := by
  intro k hk
  rw [KeySet.items_filter] at hk
  exact (List.mem_filter.1 hk).2

theorem admits_admissible (sel : Selection K) : m.Admits (m.admissible sel) := by
  cases sel with
  | all =>
    simp only [admissible]
    split
    · trivial
    · exact admits_empty
  | keys s =>
    simp only [admissible]
    split
    · next k' k'' rest hmode hlive =>
      intro k hk
      rw [KeySet.items_single, List.mem_singleton] at hk
      subst hk
      exact admits_filter s _ (by rw [hlive]; exact List.mem_cons_self)
    · exact admits_filter s

theorem allows_single (h : m.mode ≠ .none) (k : K) : m.mode.Allows (.keys (.single k)) := by
  cases hmode : m.mode with
  | none => exact absurd hmode h
  | single => exact ⟨.single k, rfl, Nat.le_refl 1⟩
  | multiple => trivial

/-- What can be selected of a key set has no members in a mode without selection. -/
theorem allows_keys {s : KeySet K} (hs : m.Admits (.keys s))
    (hsize : m.mode = .single → s.size ≤ 1) : m.mode.Allows (.keys s) := by
  cases hmode : m.mode with
  | none =>
    refine ⟨s, rfl, List.eq_nil_iff_forall_not_mem.2 fun k hk => ?_⟩
    exact mode_ne_none_of_canSelect (hs k hk) hmode
  | single => exact ⟨s, rfl, hsize hmode⟩
  | multiple => trivial

theorem allows_admissible (sel : Selection K) : m.mode.Allows (m.admissible sel) := by
  cases sel with
  | all =>
    simp only [admissible]
    split
    · next hmode =>
      rw [hmode]
      trivial
    · exact SelectionMode.allows_empty _
  | keys s =>
    simp only [admissible]
    split
    · next k k' rest hmode hlive => exact allows_single (by simp [hmode]) k
    · next hfew =>
      refine allows_keys (admits_filter s) fun hmode => ?_
      -- the other branch has at least two keys
      unfold KeySet.size
      match hlive : (s.filter m.canSelect).items with
      | [] => exact Nat.zero_le 1
      | [k] => exact Nat.le_refl 1
      | k :: k' :: rest => exact absurd hlive (hfew _ _ _ hmode)

/-- Filtering keeps within the mode. -/
theorem allows_filter {s : KeySet K} (h : m.mode.Allows (.keys s)) (p : K → Bool) :
    m.mode.Allows (.keys (s.filter p)) := by
  cases hmode : m.mode with
  | none =>
    rw [hmode] at h
    obtain ⟨t, ht, hempty⟩ := h
    cases ht
    exact ⟨_, rfl, by simp [hempty]⟩
  | single =>
    rw [hmode] at h
    obtain ⟨t, ht, hsize⟩ := h
    cases ht
    exact ⟨_, rfl, Nat.le_trans (List.length_filter_le _ _) hsize⟩
  | multiple => trivial

/-! ## Storing and announcing

A model is a setting and a selection. Storing, announcing and pruning leave the setting alone; what
they do to the selection is one equation each. -/

/-- The same rows can be selected in both models, and the same listeners are told. -/
structure SameSetting (m m' : SelectionModel K T) : Prop where
  edition : m'.edition = m.edition
  config : m'.config = m.config
  disabledKeys : m'.disabledKeys = m.disabledKeys
  controlled : m'.controlled = m.controlled
  observed : m'.observed = m.observed
  focus : m'.focus = m.focus

namespace SameSetting

theorem refl (m : SelectionModel K T) : SameSetting m m := ⟨rfl, rfl, rfl, rfl, rfl, rfl⟩

theorem trans {m'' : SelectionModel K T} (h : SameSetting m m') (h' : SameSetting m' m'') :
    SameSetting m m'' where
  edition := h'.edition.trans h.edition
  config := h'.config.trans h.config
  disabledKeys := h'.disabledKeys.trans h.disabledKeys
  controlled := h'.controlled.trans h.controlled
  observed := h'.observed.trans h.observed
  focus := h'.focus.trans h.focus

theorem mode (h : SameSetting m m') : m'.mode = m.mode := by
  unfold SelectionModel.mode
  rw [h.config]

theorem collection (h : SameSetting m m') : m'.collection = m.collection := by
  unfold SelectionModel.collection
  rw [h.edition]

theorem canSelect (h : SameSetting m m') : m'.canSelect = m.canSelect := by
  funext k
  unfold SelectionModel.canSelect
  rw [h.mode, h.collection, h.config, h.disabledKeys]

theorem resolve (h : SameSetting m m') (sel : Selection K) : m'.resolve sel = m.resolve sel := by
  unfold SelectionModel.resolve selectableKeys selectableNodes
  rw [h.collection, h.canSelect]

theorem admits (h : SameSetting m m') : m'.Admits sel ↔ m.Admits sel := by
  cases sel with
  | all => exact Iff.rfl
  | keys s => simp only [Admits, h.canSelect]

theorem knows (h : SameSetting m m') : m'.Knows sel ↔ m.Knows sel := by
  cases sel with
  | all => exact Iff.rfl
  | keys s => simp only [Knows, h.collection]

end SameSetting

theorem sameSetting_store (m : SelectionModel K T) (next : Selection K) :
    SameSetting m (m.store next) := ⟨rfl, rfl, rfl, rfl, rfl, rfl⟩

theorem sameSetting_adopt (m : SelectionModel K T) (next : Selection K) :
    SameSetting m (m.adopt next).model := by
  unfold adopt
  cases m.controlled with
  | true => exact .refl m
  | false => exact sameSetting_store m next

theorem sameSetting_propose (m : SelectionModel K T) (next : Selection K) :
    SameSetting m (m.propose next).model := by
  unfold propose
  split
  · exact sameSetting_adopt m next
  · split
    · exact .refl m
    · exact ⟨rfl, rfl, rfl, rfl, rfl, rfl⟩

theorem selection_adopt (m : SelectionModel K T) (next : Selection K) :
    (m.adopt next).model.selection = if m.controlled then m.selection else next := by
  unfold adopt
  cases m.controlled <;> rfl

theorem reports_adopt (m : SelectionModel K T) (next : Selection K) :
    (m.adopt next).reports = if m.observed then [next] else [] := rfl

/-- **Storing a proposal.** Without an owner the proposal is what is stored, announced or not. -/
theorem selection_propose (m : SelectionModel K T) (next : Selection K) :
    (m.propose next).model.selection = if m.controlled then m.selection else next := by
  unfold propose
  split
  · exact selection_adopt m next
  · cases m.controlled <;> rfl

/-- With an owner a proposal leaves the model as it is. -/
theorem model_propose_of_controlled (h : m.controlled = true) (next : Selection K) :
    (m.propose next).model = m := by
  unfold propose
  split
  · exact if_pos h
  · rfl

/-- **Announcing a proposal.** It is announced if it differs or repeats are asked for. -/
theorem reports_propose (m : SelectionModel K T) (next : Selection K) :
    (m.propose next).reports =
      if (m.differs next || m.config.allowRepeats) && m.observed then [next] else [] := by
  unfold propose
  cases hd : m.differs next || m.config.allowRepeats with
  | true =>
    rw [Bool.true_and]
    exact reports_adopt m next
  | false => cases m.controlled <;> rfl

/-- Pruning does nothing if all stored keys can be selected, and otherwise adopts those that can. -/
theorem prune_cases (m : SelectionModel K T) :
    (m.Admits m.selection ∧ m.prune = m.still) ∨
      ∃ s, m.selection = .keys s ∧ (∃ k ∈ s.items, ¬ m.canSelect k) ∧
        m.prune = m.adopt (.keys (s.filter m.canSelect)) := by
  cases hsel : m.selection with
  | all =>
    refine Or.inl ⟨trivial, ?_⟩
    simp [prune, hsel]
  | keys s =>
    have hprune : m.prune = if (s.filter m.canSelect).size = s.size then m.still
        else m.adopt (.keys (s.filter m.canSelect)) := by simp [prune, hsel]
    have hsize : (s.filter m.canSelect).size = s.size ↔ m.Admits (.keys s) :=
      List.length_filter_eq_length_iff
    by_cases hall : m.Admits (.keys s)
    · exact Or.inl ⟨hall, by rw [hprune, if_pos (hsize.2 hall)]⟩
    · refine Or.inr ⟨s, rfl, ?_, by rw [hprune, if_neg (fun h => hall (hsize.1 h))]⟩
      simpa [Admits] using hall

theorem sameSetting_prune (m : SelectionModel K T) : SameSetting m m.prune.model := by
  rcases prune_cases m with ⟨-, h⟩ | ⟨s, -, -, h⟩
  · rw [h]
    exact .refl m
  · rw [h]
    exact sameSetting_adopt m _

/-! ## The proposals of a gesture -/

/-- The selections that a gesture can propose. -/
inductive Proposes (m : SelectionModel K T) : Gesture K → Selection K → Prop where
  | replace (k : K) (hk : m.canSelect k) : Proposes m (.replace k) (.keys (.single k))
  /-- Where one row may be selected, a row that is not selected takes the place of the one that
  is. -/
  | exchange (k : K) (hk : m.canSelect k) (hmode : m.mode = .single) (hsel : ¬ m.isSelected k) :
      Proposes m (.toggle k) (.keys (.single k))
  | switchOff (k : K) (hk : m.canSelect k) (hsel : m.mode = .single → m.isSelected k)
      (hlive : k ∈ m.liveKeys.items) (hlast : m.config.disallowEmpty → 1 < m.liveKeys.size) :
      Proposes m (.toggle k) (.keys ((m.liveKeys.erase k).withRoles (some k) (some k)))
  | switchOn (k : K) (hk : m.canSelect k) (hsel : m.mode = .single → m.isSelected k)
      (hlive : k ∉ m.liveKeys.items) :
      Proposes m (.toggle k) (.keys ((m.liveKeys.insert k).withRoles (some k) (some k)))
  /-- Where one row may be selected, a range is its moving end. -/
  | extendSingle (k : K) (hk : m.canSelect k) (hmode : m.mode = .single) :
      Proposes m (.extend k) (.keys (.single k))
  /-- A range that starts from everything is its moving end, whether or not that can be selected. -/
  | extendAll (k : K) (hmode : m.mode = .multiple) (hk : m.collection.contains k)
      (hall : m.selection = .all) : Proposes m (.extend k) (.keys (.single k))
  | stretch (k : K) (hmode : m.mode = .multiple) (hk : m.collection.contains k)
      (hall : m.selection ≠ .all) : Proposes m (.extend k) (.keys (m.stretched k))
  | select (ks : List K) (hmode : m.mode ≠ .none) :
      Proposes m (.select ks) (m.admissible (.keys (.ofListHashed ks)))
  | selectAll (hmode : m.mode = .multiple) : Proposes m .selectAll .all
  | clear (hsome : ¬ m.isEmpty) (hempty : ¬ m.config.disallowEmpty) : Proposes m .clear .empty
  | allOff (hall : m.isSelectAll) (hsome : ¬ m.isEmpty) (hempty : ¬ m.config.disallowEmpty) :
      Proposes m .toggleSelectAll .empty
  | allOn (hall : ¬ m.isSelectAll) (hmode : m.mode = .multiple) : Proposes m .toggleSelectAll .all

theorem replace_cases (m : SelectionModel K T) (k : K) :
    m.replace k = m.still ∨ m.canSelect k ∧ m.replace k = m.propose (.keys (.single k)) := by
  unfold replace
  split
  · next hk => exact Or.inr ⟨hk, rfl⟩
  · exact Or.inl rfl

theorem selectAll_cases (m : SelectionModel K T) :
    m.selectAll = m.still ∨ m.mode = .multiple ∧ m.selectAll = m.propose .all := by
  unfold selectAll
  split
  · next hmode => exact Or.inr ⟨hmode, rfl⟩
  · exact Or.inl rfl

theorem clear_cases (m : SelectionModel K T) :
    m.clear = m.still ∨
      (¬ m.isEmpty ∧ ¬ m.config.disallowEmpty) ∧ m.clear = m.propose .empty := by
  unfold clear
  split
  · exact Or.inl rfl
  · next h => exact Or.inr ⟨not_or.1 h, rfl⟩

theorem toggle_cases (m : SelectionModel K T) (k : K) :
    m.toggle k = m.still ∨ ∃ next, m.Proposes (.toggle k) next ∧ m.toggle k = m.propose next := by
  unfold toggle
  split
  · exact Or.inl rfl
  · next hk =>
    have hk : m.canSelect k := by simpa using hk
    split
    · next h =>
      rcases replace_cases m k with hstill | ⟨-, hprop⟩
      · exact Or.inl hstill
      · exact Or.inr ⟨_, .exchange k hk h.1 (by simpa using h.2), hprop⟩
    · next h =>
      have hsel : m.mode = .single → m.isSelected k := by simpa using h
      simp only
      split
      · next hlive =>
        split
        · exact Or.inl rfl
        · next hlast =>
          refine Or.inr ⟨_, .switchOff k hk hsel (KeySet.contains_iff.1 hlive) ?_, rfl⟩
          intro hempty
          exact Nat.lt_of_not_le fun hle => hlast ⟨hempty, hle⟩
      · next hlive =>
        exact Or.inr ⟨_, .switchOn k hk hsel (fun h => hlive (KeySet.contains_iff.2 h)), rfl⟩

theorem extend_cases (m : SelectionModel K T) (k : K) :
    m.extend k = m.still ∨ ∃ next, m.Proposes (.extend k) next ∧ m.extend k = m.propose next := by
  unfold extend
  split
  · exact Or.inl rfl
  · next hmode =>
    rcases replace_cases m k with hstill | ⟨hk, hprop⟩
    · exact Or.inl hstill
    · exact Or.inr ⟨_, .extendSingle k hk hmode, hprop⟩
  · next hmode =>
    split
    · exact Or.inl rfl
    · next hk =>
      have hk : m.collection.contains k := by simpa using hk
      split
      · next hall => exact Or.inr ⟨_, .extendAll k hmode hk (Selection.isAll_iff.1 hall), rfl⟩
      · next hall =>
        exact Or.inr ⟨_, .stretch k hmode hk (fun h => hall (Selection.isAll_iff.2 h)), rfl⟩

/-- **Gestures propose.** A gesture does nothing, or it is one of the listed proposals. -/
theorem gesture_cases (m : SelectionModel K T) (g : Gesture K) :
    m.gesture g = m.still ∨ ∃ next, m.Proposes g next ∧ m.gesture g = m.propose next := by
  cases g with
  | toggle k => exact toggle_cases m k
  | replace k =>
    rcases replace_cases m k with h | ⟨hk, h⟩
    · exact Or.inl h
    · exact Or.inr ⟨_, .replace k hk, h⟩
  | extend k => exact extend_cases m k
  | select ks =>
    by_cases hmode : m.mode = .none
    · exact Or.inl (by simp [gesture, select, hmode])
    · exact Or.inr ⟨_, .select ks hmode, by simp [gesture, select, hmode]⟩
  | selectAll =>
    rcases selectAll_cases m with h | ⟨hmode, h⟩
    · exact Or.inl h
    · exact Or.inr ⟨_, .selectAll hmode, h⟩
  | toggleSelectAll =>
    by_cases hall : m.isSelectAll
    · have hclear : m.gesture .toggleSelectAll = m.clear := by simp [gesture, toggleSelectAll, hall]
      rcases clear_cases m with h | ⟨⟨hsome, hempty⟩, h⟩
      · exact Or.inl (hclear.trans h)
      · exact Or.inr ⟨_, .allOff hall hsome hempty, hclear.trans h⟩
    · have hselect : m.gesture .toggleSelectAll = m.selectAll := by
        simp [gesture, toggleSelectAll, hall]
      rcases selectAll_cases m with h | ⟨hmode, h⟩
      · exact Or.inl (hselect.trans h)
      · exact Or.inr ⟨_, .allOn hall hmode, hselect.trans h⟩
  | clear =>
    rcases clear_cases m with h | ⟨⟨hsome, hempty⟩, h⟩
    · exact Or.inl h
    · exact Or.inr ⟨_, .clear hsome hempty, h⟩

/-- What is listed is what is proposed. -/
theorem Proposes.gesture_eq (h : m.Proposes g next) : m.gesture g = m.propose next := by
  cases h with
  | replace k hk => exact if_pos hk
  | exchange k hk hmode hsel => simp [gesture, toggle, SelectionModel.replace, hk, hmode, hsel]
  | switchOff k hk hsel hlive hlast =>
    have hkeep : ¬ (m.mode = .single ∧ !m.isSelected k) := by simpa using hsel
    have hmore : ¬ (m.config.disallowEmpty = true ∧ m.liveKeys.size ≤ 1) :=
      fun h => Nat.not_le_of_lt (hlast h.1) h.2
    simp only [gesture, toggle, hk, if_neg hkeep, KeySet.contains_iff.2 hlive, if_neg hmore]
    rfl
  | switchOn k hk hsel hlive =>
    have hkeep : ¬ (m.mode = .single ∧ !m.isSelected k) := by simpa using hsel
    have hout : m.liveKeys.contains k = false := by simpa [← Bool.not_eq_true] using hlive
    simp only [gesture, toggle, hk, if_neg hkeep, hout]
    rfl
  | extendSingle k hk hmode => simp [gesture, extend, SelectionModel.replace, hk, hmode]
  | extendAll k hmode hk hall => simp [gesture, extend, hmode, hk, hall, Selection.isAll]
  | stretch k hmode hk hall =>
    have hall : m.selection.isAll = false :=
      Bool.eq_false_iff.2 fun h => hall (Selection.isAll_iff.1 h)
    simp [gesture, extend, hmode, hk, hall]
  | select ks hmode => exact if_neg hmode
  | selectAll hmode => exact if_pos hmode
  | clear hsome hempty => exact if_neg (not_or.2 ⟨hsome, hempty⟩)
  | allOff hall hsome hempty =>
    exact (if_pos hall).trans (if_neg (not_or.2 ⟨hsome, hempty⟩))
  | allOn hall hmode => exact (if_neg hall).trans (if_pos hmode)

/-- Without an owner, what a gesture proposes is what is stored after it. -/
theorem Proposes.selection_gesture (h : m.Proposes g next) (hfree : m.controlled = false) :
    (m.gesture g).model.selection = next := by
  rw [h.gesture_eq, selection_propose, hfree]
  rfl

theorem sameSetting_gesture (m : SelectionModel K T) (g : Gesture K) :
    SameSetting m (m.gesture g).model := by
  rcases gesture_cases m g with h | ⟨next, -, h⟩
  · rw [h]
    exact .refl m
  · rw [h]
    exact sameSetting_propose m next

/-! ## What no operation changes -/

theorem exists_setFocusedKey_eq (m : SelectionModel K T) (k : Option K)
    (child : Option FocusStrategy) : ∃ focus, m.setFocusedKey k child = { m with focus } := by
  unfold setFocusedKey
  split
  · exact ⟨_, rfl⟩
  · exact ⟨m.focus, rfl⟩

/-- The models were set up in the same way: the same may be selected in them, and both have an owner
or neither has. -/
structure SameTerms (m m' : SelectionModel K T) : Prop where
  config : m'.config = m.config
  controlled : m'.controlled = m.controlled

/-- Operations neither change how a list may be selected nor bring an owner in or remove one. -/
theorem sameTerms_apply (m : SelectionModel K T) (op : Operation K T) :
    SameTerms m (m.apply op).model := by
  cases op with
  | gesture g =>
    have setting := sameSetting_gesture m g
    exact ⟨setting.config, setting.controlled⟩
  | setDisabled ks =>
    have setting := sameSetting_prune { m with disabledKeys := Std.HashSet.ofList ks }
    exact ⟨setting.config, setting.controlled⟩
  | setControlled | setBehavior | setFocused | setFocusVisible | setObserved => exact ⟨rfl, rfl⟩
  | setFocusedKey k child =>
    obtain ⟨focus, hfocus⟩ := m.exists_setFocusedKey_eq k child
    rw [apply, hfocus]
    exact ⟨rfl, rfl⟩
  | setEdition e =>
    change SameTerms m (m.setEdition e).model
    unfold setEdition
    split
    · exact ⟨rfl, rfl⟩
    · have setting := sameSetting_prune { m with edition := e, focus := m.refocus e }
      exact ⟨setting.config, setting.controlled⟩

theorem sameTerms_run (m : SelectionModel K T) (ops : List (Operation K T)) :
    SameTerms m (m.run ops).model := by
  induction ops generalizing m with
  | nil => exact ⟨rfl, rfl⟩
  | cons op ops ih =>
    have hfirst := sameTerms_apply m op
    have hrest := ih (m.apply op).model
    exact ⟨hrest.config.trans hfirst.config, hrest.controlled.trans hfirst.controlled⟩

/-! ## What can be said of every proposal -/

/-- The gesture makes a range out of everything, towards a row that cannot be selected. -/
def Overreaches (m : SelectionModel K T) (g : Gesture K) : Prop :=
  ∃ k, g = .extend k ∧ m.mode = .multiple ∧ m.selection = .all ∧ m.collection.contains k ∧
    ¬ m.canSelect k

/-- All keys of a proposal can be selected, unless the gesture overreaches. -/
theorem Proposes.admits (h : m.Proposes g next) (hg : ¬ m.Overreaches g) : m.Admits next := by
  cases h with
  | replace k hk | exchange k hk | extendSingle k hk =>
    intro k' hk'
    rw [KeySet.items_single, List.mem_singleton] at hk'
    exact hk' ▸ hk
  | switchOff k hk =>
    intro k' hk'
    exact canSelect_of_mem_liveKeys (KeySet.mem_items_erase.1 hk').2
  | switchOn k hk =>
    intro k' hk'
    rcases KeySet.mem_items_insert.1 hk' with hk' | rfl
    · exact canSelect_of_mem_liveKeys hk'
    · exact hk
  | extendAll k hmode hk hall =>
    intro k' hk'
    rw [KeySet.items_single, List.mem_singleton] at hk'
    subst hk'
    by_cases hcan : m.canSelect k'
    · exact hcan
    · exact absurd ⟨k', rfl, hmode, hall, hk, hcan⟩ hg
  | stretch k => exact fun k' hk' => canSelect_of_mem_stretched hk'
  | select ks => exact admits_admissible _
  | selectAll | allOn => trivial
  | clear | allOff => exact admits_empty

/-- All keys of a proposal are in the collection, even if the gesture overreaches. -/
theorem Proposes.knows (h : m.Proposes g next) : m.Knows next := by
  by_cases hg : m.Overreaches g
  -- the one proposal that may not be selectable still names a row of the collection
  · obtain ⟨k, rfl, hmode, hall, hk, hcan⟩ := hg
    cases h with
    | extendSingle _ hk' => exact absurd hk' hcan
    | extendAll =>
      intro k' hk'
      rw [KeySet.items_single, List.mem_singleton] at hk'
      exact hk' ▸ hk
    | stretch _ _ _ hall' => exact absurd hall hall'
  · exact (h.admits hg).knows

theorem size_liveKeys_le (hm : m.mode.Allows m.selection) (hmode : m.mode = .single) :
    m.liveKeys.size ≤ 1 := by
  rw [hmode] at hm
  obtain ⟨s, hs, hsize⟩ := hm
  rw [liveKeys_of_keys hs]
  exact Nat.le_trans (List.length_filter_le _ _) hsize

/-- A proposal keeps within the mode if the stored selection does. -/
theorem Proposes.allows (h : m.Proposes g next) (hm : m.mode.Allows m.selection) :
    m.mode.Allows next := by
  cases h with
  | replace k hk | exchange k hk | extendSingle k hk =>
    exact allows_single (mode_ne_none_of_canSelect hk) k
  | switchOff k hk hsel hlive hlast =>
    have hadm := (Proposes.switchOff k hk hsel hlive hlast).admits fun ⟨_, hg, _⟩ => nomatch hg
    refine allows_keys hadm fun hmode => ?_
    exact Nat.le_trans List.length_erase_le (size_liveKeys_le hm hmode)
  | switchOn k hk hsel hlive =>
    have hadm := (Proposes.switchOn k hk hsel hlive).admits fun ⟨_, hg, _⟩ => nomatch hg
    refine allows_keys hadm fun hmode => ?_
    exact absurd (mem_liveKeys_of_isSelected hk (hsel hmode)) hlive
  | extendAll k hmode | stretch k hmode | selectAll hmode | allOn _ hmode =>
    rw [hmode]
    trivial
  | select ks => exact allows_admissible _
  | clear | allOff => exact SelectionMode.allows_empty _

end SelectionModel

end Listbox
