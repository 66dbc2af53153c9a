import Listbox.Proofs.Stretching

set_option autoImplicit false

/-! # Flipping rows

Flipping a row takes it out of the selection or puts it in, and leaves all others alone. The others
are the rows that are selected and still can be: "all" counts as the rows it stands for, and a row
that can no longer be selected is dropped on the way. A flip that would take the last row away may
be forbidden, and then it does nothing.

`toggle_flips` says this of every model in which many rows may be selected and nobody owns the
selection. What is left is a fact about lists: two flips of one row come to nothing. -/

universe u v

namespace Listbox

/-- A member is the last one if there is no second. -/
theorem KeySet.size_le_one_iff {K : Type u} {s : KeySet K} {k : K} (hk : k ∈ s.items) :
    s.size ≤ 1 ↔ s.items.length = 1 := by
  have hpos : 0 < s.items.length := List.length_pos_of_mem hk
  unfold KeySet.size
  omega

/-! ## On lists -/

section Lists

variable {K : Type u} [DecidableEq K] {xs : List K} {k x : K}

/-- The list without the key if it is there, and otherwise with the key at the end. -/
def flipped (xs : List K) (k : K) : List K := if k ∈ xs then xs.erase k else xs ++ [k]

/-- A flip changes what it is about and nothing else. -/
theorem mem_flipped_iff (h : xs.Nodup) : x ∈ flipped xs k ↔ (x = k ↔ x ∉ xs) := by
  unfold flipped
  by_cases hx : x = k
  · subst hx
    split
    · next hk => simp [h.mem_erase_iff, hk]
    · next hk => simp [hk]
  · split
    · simp [h.mem_erase_iff, hx]
    · simp [hx]

/-- **Flipping twice.** The second flip undoes the first, but for the order. -/
theorem mem_flipped_flipped (h : xs.Nodup) (h' : (flipped xs k).Nodup) :
    x ∈ flipped (flipped xs k) k ↔ x ∈ xs := by
  rw [mem_flipped_iff h', mem_flipped_iff h]
  by_cases hx : x = k <;> simp [hx]

end Lists

namespace SelectionModel

variable {K : Type u} {T : Type v} [DecidableEq K] [Hashable K]
variable {m : SelectionModel K T} {k x : K}

/-! ## What a flip starts from -/

/-- The keys that are selected and can be. -/
def liveSelected (m : SelectionModel K T) : List K := m.selectedKeys.items.filter m.canSelect

theorem nodup_liveSelected (m : SelectionModel K T) : m.liveSelected.Nodup :=
  m.selectedKeys.nodup.filter _

theorem items_liveKeys (m : SelectionModel K T) : m.liveKeys.items = m.liveSelected := by
  unfold liveKeys liveSelected selectedKeys resolve
  cases m.selection with
  | all =>
    refine (List.filter_eq_self.2 fun k hk => ?_).symm
    rw [KeySet.ofListHashed_eq_ofList, KeySet.mem_items_ofList] at hk
    exact canSelect_of_mem_selectableKeys hk
  | keys s =>
    rw [KeySet.items_filter, KeySet.items_filter, List.filter_filter]
    refine List.filter_congr fun k _ => ?_
    -- being in the collection is part of being selectable
    rw [Bool.eq_iff_iff, Bool.and_eq_true]
    exact ⟨fun hk => ⟨hk, contains_of_canSelect hk⟩, And.left⟩

/-- The row cannot be flipped: it cannot be selected, or it is the last one and must stay. -/
def Refuses (m : SelectionModel K T) (k : K) : Prop :=
  ¬ m.canSelect k ∨
    k ∈ m.liveSelected ∧ m.config.disallowEmpty = true ∧ m.liveSelected.length = 1

theorem toggle_of_refuses (hmode : m.mode = .multiple) (h : m.Refuses k) :
    m.toggle k = m.still := by
  unfold toggle
  by_cases hk : m.canSelect k
  · rcases h with hcan | ⟨hlive, hkeep, hlast⟩
    · exact absurd hk hcan
    · rw [← items_liveKeys] at hlive hlast
      have hsize : m.liveKeys.size ≤ 1 := (KeySet.size_le_one_iff hlive).2 hlast
      simp [hk, hmode, KeySet.contains_iff.2 hlive, hkeep, hsize]
  · simp [hk]

/-- A row that can be flipped is proposed to be, and becomes both ends of the range. -/
theorem exists_proposes_toggle (hmode : m.mode = .multiple) (h : ¬ m.Refuses k) :
    ∃ next, m.Proposes (.toggle k) (.keys next) ∧ next.items = flipped m.liveSelected k ∧
      next.anchor = some k ∧ next.current = some k := by
  obtain ⟨hcan, hlast⟩ := not_or.1 h
  have hcan : m.canSelect k := Classical.not_not.1 hcan
  have hsingle : m.mode = .single → m.isSelected k := by
    rw [hmode]
    exact nofun
  by_cases hlive : k ∈ m.liveKeys.items
  · refine ⟨_, .switchOff k hcan hsingle hlive fun hkeep => ?_, ?_, rfl, rfl⟩
    · refine Nat.lt_of_not_le fun hsize => hlast ?_
      rw [← items_liveKeys]
      exact ⟨hlive, hkeep, (KeySet.size_le_one_iff hlive).1 hsize⟩
    · rw [KeySet.items_withRoles, KeySet.items_erase, ← items_liveKeys]
      exact (if_pos hlive).symm
  · refine ⟨_, .switchOn k hcan hsingle hlive, ?_, rfl, rfl⟩
    rw [KeySet.items_withRoles, KeySet.items_insert, ← items_liveKeys, if_neg hlive]
    exact (if_neg hlive).symm

theorem canSelect_of_mem_flipped (hk : m.canSelect k) (hx : x ∈ flipped m.liveSelected k) :
    m.canSelect x := by
  by_cases hsame : x = k
  · exact hsame ▸ hk
  · have hmem := (mem_flipped_iff m.nodup_liveSelected).1 hx
    have hlive : x ∈ m.liveSelected := Classical.not_not.1 fun hout => hsame (hmem.2 hout)
    exact (List.mem_filter.1 hlive).2

/-- Everything that a flipped set mentions is in the collection. -/
theorem filter_of_flipped {next : KeySet K} (hk : m.canSelect k)
    (hitems : next.items = flipped m.liveSelected k) (hanchor : next.anchor = some k)
    (hcurrent : next.current = some k) : next.filter m.collection.contains = next := by
  refine KeySet.filter_eq_self fun x hx => contains_of_canSelect ?_
  simp only [KeySet.mentioned, hitems, hanchor, hcurrent, Option.toList_some, List.mem_append,
    List.mem_singleton] at hx
  rcases hx with (hx | rfl) | rfl
  · exact canSelect_of_mem_flipped hk hx
  · exact hk
  · exact hk

/-! ## The gesture -/

/-- The keys `next` are selected, and they are the live selected keys of `m` but for `k`, which is
both ends of the range. -/
structure Flips (m m' : SelectionModel K T) (k : K) (next : KeySet K) : Prop where
  stored : m'.selection = .keys next
  selected : m'.selectedKeys = next
  /-- A key that comes in is the last, and the others stay in order. -/
  items : next.items = flipped m.liveSelected k
  anchor : next.anchor = some k
  current : next.current = some k

theorem exists_flips_toggle (hfree : m.controlled = false) (hmode : m.mode = .multiple)
    (h : ¬ m.Refuses k) : ∃ next, Flips m (m.toggle k).model k next := by
  obtain ⟨next, hnext, hitems, hanchor, hcurrent⟩ := exists_proposes_toggle hmode h
  have hk : m.canSelect k := Classical.not_not.1 (not_or.1 h).1
  have hstored := hnext.selection_gesture hfree
  exact ⟨next, hstored, selectedKeys_gesture hstored (filter_of_flipped hk hitems hanchor hcurrent),
    hitems, hanchor, hcurrent⟩

/-- After a flip, all that is selected is live. -/
theorem Flips.liveSelected {m' : SelectionModel K T} {next : KeySet K} (h : Flips m m' k next)
    (hs : SameSetting m m') (hk : m.canSelect k) : m'.liveSelected = flipped m.liveSelected k := by
  rw [SelectionModel.liveSelected, h.selected, h.items, hs.canSelect]
  exact List.filter_eq_self.2 fun x hx => canSelect_of_mem_flipped hk hx

/-- **Flipping.** Where many rows may be selected and nobody owns the selection, a row that refuses
is left alone with all else. Any other is flipped among the live selected keys: its membership
changes, no other does, and it is both ends of the range. If the selection may become empty, flipping
a row again brings the live selected keys back. -/
theorem toggle_flips (hfree : m.controlled = false) (hmode : m.mode = .multiple) (k : K) :
    (m.Refuses k → m.toggle k = m.still) ∧
    (¬ m.Refuses k → ∃ next, Flips m (m.toggle k).model k next ∧
      ∀ x, x ∈ next.items ↔ (x = k ↔ x ∉ m.liveSelected)) ∧
    (m.config.disallowEmpty = false → m.canSelect k →
      let back := ((m.toggle k).model.toggle k).model
      ∀ x, (x ∈ back.selectedKeys.items ↔ x ∈ m.liveSelected) ∧
        (x ∈ back.liveSelected ↔ x ∈ m.liveSelected)) := by
  refine ⟨toggle_of_refuses hmode, fun h => ?_, fun hempty hk => ?_⟩
  · obtain ⟨next, hnext⟩ := exists_flips_toggle hfree hmode h
    refine ⟨next, hnext, fun x => ?_⟩
    rw [hnext.items, mem_flipped_iff m.nodup_liveSelected]
  · -- neither flip is refused, and the second finds the setting of the first
    have hopen : ∀ m' : SelectionModel K T, SameSetting m m' → ¬ m'.Refuses k := by
      rintro m' hs (hcan | ⟨-, hkeep, -⟩)
      · exact hcan (hs.canSelect ▸ hk)
      · rw [hs.config, hempty] at hkeep
        cases hkeep
    have hs : SameSetting m (m.toggle k).model := sameSetting_gesture m (.toggle k)
    have hs' : SameSetting (m.toggle k).model ((m.toggle k).model.toggle k).model :=
      sameSetting_gesture _ (.toggle k)
    obtain ⟨once, honce⟩ := exists_flips_toggle hfree hmode (hopen m (.refl m))
    obtain ⟨twice, htwice⟩ := exists_flips_toggle (hs.controlled.trans hfree)
      (hs.mode.trans hmode) (hopen _ hs)
    have hlive := honce.liveSelected hs hk
    have hnodup : (flipped m.liveSelected k).Nodup := hlive ▸ nodup_liveSelected _
    intro back x
    have hback : back.liveSelected = flipped (flipped m.liveSelected k) k :=
      hlive ▸ htwice.liveSelected hs' (hs.canSelect ▸ hk)
    have hkeys : back.selectedKeys.items = flipped (flipped m.liveSelected k) k := by
      rw [htwice.selected, htwice.items, hlive]
    rw [hback, hkeys, mem_flipped_flipped m.nodup_liveSelected hnodup]
    exact ⟨Iff.rfl, Iff.rfl⟩

/-- Out of everything, flipping the second row leaves the other two that can be selected, and
flipping it again brings it back. -/
theorem toggle_flips_mixedRows :
    ∃ c, Collection.ofForest mixedRows = .ok c ∧
      let m := (SelectionModel.new ⟨0, c⟩ (followOnly .multiple)).withSelection .all
      m.controlled = false ∧ m.mode = .multiple ∧ ¬ m.Refuses 2 ∧ m.canSelect 2 ∧
        (∃ next, (m.toggle 2).model.selection = .keys next ∧ next.items = [1, 5]) ∧
        ∀ x, x ∈ ((m.toggle 2).model.toggle 2).model.selectedKeys.items ↔ x ∈ [1, 2, 5] := by
  obtain ⟨c, hc⟩ := Collection.exists_ofForest_ok_iff.2 (show mixedRows.keys.Nodup by decide)
  let m := (SelectionModel.new ⟨0, c⟩ (followOnly .multiple)).withSelection .all
  have hcan : m.canSelect = fun k => decide (k ∈ [1, 2, 5]) :=
    funext (canSelect_mixedRows hc)
  have hlive : m.liveSelected = [1, 2, 5] := by
    have hkeys : m.selectableKeys = [1, 2, 5] := by
      rw [selectableKeys_eq_filter, hcan]
      exact (congrArg _ (Collection.keys_ofForest hc)).trans rfl
    rw [← items_liveKeys]
    change (KeySet.ofListHashed m.selectableKeys).items = _
    rw [hkeys, KeySet.ofListHashed_eq_ofList, KeySet.items_ofList]
    rfl
  have htwo : m.canSelect 2 := by rw [hcan]; rfl
  have hopen : ¬ m.Refuses 2 := by
    rintro (hcan | ⟨-, hkeep, -⟩)
    · exact hcan htwo
    · cases hkeep
  obtain ⟨-, hflip, hback⟩ := toggle_flips (m := m) rfl rfl 2
  obtain ⟨next, hnext, -⟩ := hflip hopen
  refine ⟨c, hc, rfl, rfl, hopen, htwo, ⟨next, hnext.stored, ?_⟩, fun x => ?_⟩
  · rw [hnext.items, hlive]
    rfl
  · rw [← hlive]
    exact (hback rfl htwo x).1

end SelectionModel

end Listbox
