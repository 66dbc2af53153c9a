import Listbox.Collection.Search
import Listbox.Proofs.Proposal

set_option autoImplicit false

/-! # What lies between two rows

A range is cut out of the reading order by two positions. For gestures it matters only as a set of
rows: `mem_range_iff` says which they are, and `filter_range` that the selectable ones among them
come in reading order. From there on a stretched selection is two filters (`items_stretched`): it
keeps the live keys that the old range did not cover and gains the selectable rows of the new
one. -/

universe u v

namespace Listbox

/-- A part of a list without repetition is the filter by what its members are. -/
theorem eq_filter_of_sublist {K : Type u} {xs ys : List K} {p : K → Bool} (hys : ys.Nodup)
    (h : xs.Sublist ys) (hmem : ∀ k ∈ ys, k ∈ xs ↔ p k) : xs = ys.filter p := by
  have hall : xs.filter p = xs := List.filter_eq_self.2 fun k hk => (hmem k (h.subset hk)).1 hk
  have hsub : xs.Sublist (ys.filter p) := hall ▸ h.filter p
  have hperm : xs.Perm (ys.filter p) := by
    refine (List.perm_ext_iff_of_nodup (hys.sublist h) (hys.filter p)).2 fun k => ?_
    rw [List.mem_filter]
    exact ⟨fun hk => ⟨h.subset hk, (hmem k (h.subset hk)).1 hk⟩, fun hk => (hmem k hk.1).2 hk.2⟩
  exact hsub.eq_of_length hperm.length_eq

variable {K : Type u} {T : Type v} [DecidableEq K] [Hashable K]

namespace SelectionModel

variable {m m' : SelectionModel K T} {a b k : K}

/-- Whether a row is one of two others or stands between them, whichever of the two comes first. -/
def isBetween (m : SelectionModel K T) (a b k : K) : Bool :=
  match m.collection.position? a, m.collection.position? b, m.collection.position? k with
  | some i, some j, some n => min i j ≤ n && n ≤ max i j
  | _, _, _ => false

theorem isBetween_iff :
    m.isBetween a b k ↔ ∃ x y n, m.collection.get? a = some x ∧ m.collection.get? b = some y ∧
      m.collection.get? k = some n ∧ min x.index y.index ≤ n.index ∧
        n.index ≤ max x.index y.index := by
  unfold isBetween
  simp only [Collection.position?_eq_map_index]
  cases m.collection.get? a <;> cases m.collection.get? b <;> cases m.collection.get? k <;> simp

/-- Which rows are between two others is read off the forest. -/
theorem isBetween_iff_of_ofForest {f : Forest (Entry K T)} {i j n : Nat}
    (hf : Collection.ofForest f = .ok m.collection) (ha : f.keys[i]? = some a)
    (hb : f.keys[j]? = some b) (hk : f.keys[n]? = some k) :
    m.isBetween a b k ↔ min i j ≤ n ∧ n ≤ max i j := by
  rw [← Collection.position?_ofForest hf] at ha hb hk
  simp [isBetween, ha, hb, hk]

theorem isBetween_right (ha : m.collection.contains a) (hk : m.collection.contains k) :
    m.isBetween a k k := by
  rw [Collection.contains_eq_isSome_get?, Option.isSome_iff_exists] at ha hk
  obtain ⟨x, hx⟩ := ha
  obtain ⟨n, hn⟩ := hk
  exact isBetween_iff.2 ⟨x, n, n, hx, hn, hn, Nat.min_le_right _ _, Nat.le_max_right _ _⟩

theorem isBetween_left (ha : m.collection.contains a) (hk : m.collection.contains k) :
    m.isBetween k a k := by
  rw [Collection.contains_eq_isSome_get?, Option.isSome_iff_exists] at ha hk
  obtain ⟨x, hx⟩ := ha
  obtain ⟨n, hn⟩ := hk
  exact isBetween_iff.2 ⟨n, x, n, hn, hx, hn, Nat.min_le_left _ _, Nat.le_max_left _ _⟩

/-- **Ranges.** A range has the items that stand between its ends. -/
theorem mem_range_iff :
    k ∈ m.range a b ↔ m.isBetween a b k ∧ (m.collection.get? k).any (·.isItem) := by
  rw [isBetween_iff]
  unfold range
  cases ha : m.collection.get? a with
  | none => simp
  | some x =>
    cases hb : m.collection.get? b with
    | none => simp
    | some y =>
      simp only [List.mem_map, List.mem_filter, Collection.mem_drop_take_iff, Option.some.injEq]
      constructor
      · rintro ⟨n, ⟨⟨hn, hfirst, hlast⟩, hitem⟩, rfl⟩
        have hget := Collection.get?_eq_some_iff.2 ⟨hn, rfl⟩
        exact ⟨⟨x, y, n, rfl, rfl, hget, hfirst, hlast⟩, by simp [hget, hitem]⟩
      · rintro ⟨⟨_, _, n, rfl, rfl, hget, hfirst, hlast⟩, hitem⟩
        obtain ⟨hn, rfl⟩ := Collection.get?_eq_some_iff.1 hget
        exact ⟨n, ⟨⟨hn, hfirst, hlast⟩, by simpa [hget] using hitem⟩, rfl⟩

theorem isItem_of_canSelect (h : m.canSelect k) : (m.collection.get? k).any (·.isItem) := by
  obtain ⟨-, -, n, hn, hkey, hitem, -⟩ := canSelect_iff.1 h
  simp [Collection.get?_eq_some_iff.2 ⟨hn, hkey⟩, hitem]

theorem mem_range_iff_of_canSelect (h : m.canSelect k) : k ∈ m.range a b ↔ m.isBetween a b k := by
  rw [mem_range_iff]
  exact and_iff_left (isItem_of_canSelect h)

/-! ## The rows of a range in reading order -/

theorem mem_selectableKeys_iff : k ∈ m.selectableKeys ↔ m.canSelect k := by
  refine ⟨canSelect_of_mem_selectableKeys, fun hk => ?_⟩
  obtain ⟨n, hn, rfl⟩ := List.mem_map.1 (Collection.contains_iff_mem_keys.1
    (contains_of_canSelect hk))
  exact List.mem_map_of_mem (List.mem_filter.2 ⟨hn, hk⟩)

theorem selectableKeys_eq_filter (m : SelectionModel K T) :
    m.selectableKeys = m.collection.keys.filter m.canSelect := by
  rw [Collection.keys, List.filter_map]
  rfl

theorem nodup_selectableKeys (m : SelectionModel K T) : m.selectableKeys.Nodup := by
  rw [selectableKeys_eq_filter]
  exact m.collection.nodup_keys.filter _

theorem range_sublist_keys (m : SelectionModel K T) (a b : K) :
    (m.range a b).Sublist m.collection.keys := by
  unfold range
  split
  · refine List.Sublist.map _ ?_
    exact List.filter_sublist.trans ((List.drop_sublist _ _).trans (List.take_sublist _ _))
  · exact List.nil_sublist _

/-- **Order.** The rows of a range that can be selected come in reading order. -/
theorem filter_range (m : SelectionModel K T) (a b : K) :
    (m.range a b).filter m.canSelect = m.selectableKeys.filter (m.isBetween a b) := by
  refine eq_filter_of_sublist m.nodup_selectableKeys ?_ fun k hk => ?_
  · rw [selectableKeys_eq_filter]
    exact (m.range_sublist_keys a b).filter _
  · have hcan := mem_selectableKeys_iff.1 hk
    rw [List.mem_filter, mem_range_iff_of_canSelect hcan]
    exact and_iff_left hcan

theorem SameSetting.isBetween (h : SameSetting m m') : m'.isBetween = m.isBetween := by
  funext a b k
  unfold SelectionModel.isBetween
  rw [h.collection]

theorem SameSetting.selectableKeys (h : SameSetting m m') :
    m'.selectableKeys = m.selectableKeys := by
  rw [selectableKeys_eq_filter, selectableKeys_eq_filter, h.collection, h.canSelect]

/-! ## Stretched selections -/

@[simp] theorem anchor_stretched (m : SelectionModel K T) (k : K) :
    (m.stretched k).anchor = some (m.rangeStart m.liveKeys k) := rfl

@[simp] theorem current_stretched (m : SelectionModel K T) (k : K) :
    (m.stretched k).current = some k := rfl

theorem contains_rangeStart (m : SelectionModel K T) (live : KeySet K)
    (hk : m.collection.contains k) : m.collection.contains (m.rangeStart live k) := by
  unfold rangeStart
  cases h : (live.anchor.or m.focus.key).filter m.collection.contains with
  | none => exact hk
  | some a => exact (Option.filter_eq_some_iff.1 h).2

theorem rangeStart_of_anchor {live : KeySet K} (ha : live.anchor = some a)
    (hc : m.collection.contains a) : m.rangeStart live k = a := by
  simp [rangeStart, ha, Option.filter, hc]

theorem rangeStart_of_focus {live : KeySet K} (hlive : live.anchor = none)
    (ha : m.focus.key = some a) (hc : m.collection.contains a) : m.rangeStart live k = a := by
  simp [rangeStart, hlive, ha, Option.filter, hc]

theorem extend_eq_propose (hmode : m.mode = .multiple) (hk : m.collection.contains k)
    (hall : m.selection ≠ .all) : m.extend k = m.propose (.keys (m.stretched k)) :=
  (Proposes.stretch k hmode hk hall).gesture_eq

/-- The live keys that give way to no new range from `a`: the last one, from `a` to the current key,
does not cover them. -/
def spared (m : SelectionModel K T) (live : KeySet K) (a : K) : List K :=
  live.items.filter fun k => live.current.all fun last => !m.isBetween a last k

theorem mem_spared_iff {live : KeySet K} :
    k ∈ m.spared live a ↔ k ∈ live.items ∧ ∀ last, live.current = some last →
      ¬ m.isBetween a last k := by
  simp [spared, List.mem_filter, Option.all_eq_true]

/-- **Stretching.** The live keys that the old range does not cover stay in order, and the selectable
rows of the new one follow in reading order. -/
theorem items_stretched (m : SelectionModel K T) (k : K) :
    (m.stretched k).items =
      m.spared m.liveKeys (m.rangeStart m.liveKeys k) ++
        (m.selectableKeys.filter (m.isBetween (m.rangeStart m.liveKeys k) k)).filter fun x =>
          x ∉ m.spared m.liveKeys (m.rangeStart m.liveKeys k) := by
  have hnew := m.nodup_selectableKeys.filter (m.isBetween (m.rangeStart m.liveKeys k) k)
  unfold stretched
  rw [KeySet.items_withRoles, filter_range, KeySet.items_insertMany_of_nodup hnew]
  cases hlast : m.liveKeys.current with
  | none =>
    have hspared : m.spared m.liveKeys (m.rangeStart m.liveKeys k) = m.liveKeys.items :=
      List.filter_eq_self.2 fun x _ => by rw [hlast, Option.all_none]
    rw [hspared]
  | some last =>
    have hspared : (m.liveKeys.eraseMany (m.range (m.rangeStart m.liveKeys k) last)).items =
        m.spared m.liveKeys (m.rangeStart m.liveKeys k) := by
      rw [KeySet.items_eraseMany]
      refine List.filter_congr fun x hx => ?_
      have hcan := canSelect_of_mem_liveKeys hx
      rw [hlast, Option.all_some, Bool.eq_iff_iff]
      simp [mem_range_iff_of_canSelect hcan]
    simp only [hspared]

/-- What a stretched selection comes to, row by row. -/
theorem mem_stretched_iff {x : K} :
    x ∈ (m.stretched k).items ↔
      (x ∈ m.liveKeys.items ∧ ∀ last, m.liveKeys.current = some last →
        ¬ m.isBetween (m.rangeStart m.liveKeys k) last x) ∨
      m.canSelect x ∧ m.isBetween (m.rangeStart m.liveKeys k) k x := by
  rw [items_stretched, ← mem_spared_iff]
  simp only [List.mem_append, List.mem_filter, mem_selectableKeys_iff, decide_eq_true_eq]
  by_cases hx : x ∈ m.spared m.liveKeys (m.rangeStart m.liveKeys k) <;> simp [hx]

/-- If the old range covers all the live keys, only the new one counts, in reading order. -/
theorem items_stretched_of_covered {last : K} (hlast : m.liveKeys.current = some last)
    (h : ∀ x ∈ m.liveKeys.items, m.isBetween (m.rangeStart m.liveKeys k) last x) :
    (m.stretched k).items =
      m.selectableKeys.filter (m.isBetween (m.rangeStart m.liveKeys k) k) := by
  have hnone : m.spared m.liveKeys (m.rangeStart m.liveKeys k) = [] := by
    refine List.eq_nil_iff_forall_not_mem.2 fun x hx => ?_
    obtain ⟨hlive, hout⟩ := mem_spared_iff.1 hx
    exact hout last hlast (h x hlive)
  rw [items_stretched, hnone, List.nil_append]
  exact List.filter_eq_self.2 fun x _ => by simp

end SelectionModel

end Listbox
