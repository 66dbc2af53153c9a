import Listbox.Proofs.Announcement
import Listbox.Proofs.Range

set_option autoImplicit false

/-! # What a range remembers

A range that is stretched again gives up the rows of the last stretch before it takes the new ones.
It knows the last stretch by its current key, and forgets that key if the row cannot be selected: a
stretch to such a row is never given up as such, and its rows go only when a later stretch happens
to cover them. `drag_forgets_iff` says that nothing else makes a range depend on the way it was
drawn, so that two ways agree exactly if all the rows that linger belong to the last stretch.

The argument is a step lemma for one stretch and an induction on the keys the range is drawn to. -/

universe u v

namespace Listbox.SelectionModel

variable {K : Type u} {T : Type v} [DecidableEq K] [Hashable K]
variable {m m' : SelectionModel K T} {a k last t x : K} {held : KeySet K} {ts : List K}

/-- Selecting a row, and moving the end of a range from there to one row after the other. -/
def drag (a : K) (ts : List K) : List (Operation K T) :=
  .gesture (.replace a) :: ts.map fun t => .gesture (.extend t)

/-- The row came into a range from `a` when the range was drawn to a row that cannot be selected,
and no later one to a row that can be has covered it. -/
def Lingers (m : SelectionModel K T) (a x : K) : List K → Prop
  | [] => False
  | t :: ts =>
    (¬ m.canSelect t ∧ m.isBetween a t x ∧ ∀ t' ∈ ts, m.canSelect t' → ¬ m.isBetween a t' x) ∨
      Lingers m a x ts

/-! ## One stretch -/

/-- The model stores the keys `held`, with a range from `a` to `last`. -/
structure Spans (m m' : SelectionModel K T) (a last : K) (held : KeySet K) : Prop where
  setting : SameSetting m m'
  stored : m'.selection = .keys held
  anchor : held.anchor = some a
  current : held.current = some last
  admits : m.Admits (.keys held)

namespace Spans

theorem liveKeys (h : Spans m m' a last held) : m'.liveKeys = held.filter m.canSelect := by
  rw [liveKeys_of_keys h.stored, h.setting.canSelect]

theorem items_liveKeys (h : Spans m m' a last held) : m'.liveKeys.items = held.items := by
  rw [h.liveKeys, KeySet.items_filter]
  exact List.filter_eq_self.2 h.admits

theorem current_liveKeys (h : Spans m m' a last held) :
    m'.liveKeys.current = if m.canSelect last then some last else none := by
  rw [h.liveKeys, KeySet.current_filter, h.current]
  rfl

theorem rangeStart (h : Spans m m' a last held) (ha : m.canSelect a) :
    m'.rangeStart m'.liveKeys t = a := by
  refine rangeStart_of_anchor ?_ ?_
  · rw [h.liveKeys, KeySet.anchor_filter, h.anchor]
    exact if_pos ha
  · rw [h.setting.collection]
    exact contains_of_canSelect ha

theorem selectedKeys_eq_resolve (h : Spans m m' a last held) :
    m'.selectedKeys = m.resolve (.keys held) := by
  unfold SelectionModel.selectedKeys
  rw [h.stored, h.setting.resolve]

/-- What is stored comes to its own members. -/
theorem selectedKeys (h : Spans m m' a last held) : m'.selectedKeys.items = held.items := by
  rw [h.selectedKeys_eq_resolve]
  exact items_resolve_of_knows h.admits.knows

/-- Stretching moves the end of the range. -/
theorem extend (h : Spans m m' a last held) (hfree : m.controlled = false)
    (hmode : m.mode = .multiple) (ha : m.canSelect a) (ht : m.collection.contains t) :
    Spans m (m'.extend t).model a t (m'.stretched t) := by
  have hextend : m'.extend t = m'.propose (.keys (m'.stretched t)) := by
    refine extend_eq_propose (h.setting.mode.trans hmode) ?_ ?_
    · rw [h.setting.collection]
      exact ht
    · rw [h.stored]
      exact nofun
  have setting := sameSetting_propose m' (.keys (m'.stretched t))
  rw [hextend]
  refine ⟨h.setting.trans setting, ?_, ?_, rfl, ?_⟩
  · rw [selection_propose, h.setting.controlled, hfree]
    rfl
  · rw [anchor_stretched, h.rangeStart ha]
  · rw [← h.setting.admits]
    exact fun k hk => canSelect_of_mem_stretched hk

/-- **One stretch.** It withdraws the last one if that went to a row that can be selected, and adds
the selectable rows of the new one. -/
theorem mem_stretched (h : Spans m m' a last held) (ha : m.canSelect a) :
    x ∈ (m'.stretched t).items ↔
      (x ∈ held.items ∧ (m.canSelect last → ¬ m.isBetween a last x)) ∨
        m.canSelect x ∧ m.isBetween a t x := by
  rw [mem_stretched_iff, h.rangeStart ha, h.items_liveKeys, h.current_liveKeys,
    h.setting.isBetween, h.setting.canSelect]
  refine or_congr_left (and_congr_right fun _ => ?_)
  by_cases hlast : m.canSelect last
  · simp [hlast]
  · simp [hlast]

/-- If the last stretch went to a row that can be selected and is all there is, the next one is. -/
theorem items_stretched (h : Spans m m' a last held) (ha : m.canSelect a)
    (hlast : m.canSelect last) (hheld : ∀ x ∈ held.items, m.isBetween a last x) :
    (m'.stretched t).items = m.selectableKeys.filter (m.isBetween a t) := by
  have hcurrent : m'.liveKeys.current = some last := h.current_liveKeys.trans (if_pos hlast)
  rw [items_stretched_of_covered hcurrent, h.rangeStart ha, h.setting.isBetween,
    h.setting.selectableKeys]
  rw [h.rangeStart ha, h.setting.isBetween, h.items_liveKeys]
  exact hheld

/-- What was there before the next stretch lingers, or is there after it, exactly if it lingers
with that stretch in front or was there before and is never covered: the rows of the stretch itself
outlast the one after it only if its end cannot be selected. -/
theorem lingers_or_stays_iff (h : Spans m m' a last held) (ha : m.canSelect a)
    (hx : m.canSelect x) :
    (m.Lingers a x ts ∨ x ∈ (m'.stretched t).items ∧
        ∀ t' ∈ t :: ts, m.canSelect t' → ¬ m.isBetween a t' x) ↔
      (m.Lingers a x (t :: ts) ∨ x ∈ held.items ∧
        ∀ t' ∈ last :: t :: ts, m.canSelect t' → ¬ m.isBetween a t' x) := by
  rw [h.mem_stretched ha]
  simp only [Lingers, List.forall_mem_cons]
  constructor
  · rintro (hlingers | ⟨⟨hheld, hlast⟩ | ⟨-, hnew⟩, ht, hts⟩)
    · exact Or.inl (Or.inr hlingers)
    · exact Or.inr ⟨hheld, hlast, ht, hts⟩
    · exact Or.inl (Or.inl ⟨fun hcan => ht hcan hnew, hnew, hts⟩)
  · rintro ((⟨ht, hnew, hts⟩ | hlingers) | ⟨hheld, hlast, ht, hts⟩)
    · exact Or.inr ⟨Or.inr ⟨hx, hnew⟩, fun hcan => absurd hcan ht, hts⟩
    · exact Or.inl hlingers
    · exact Or.inr ⟨Or.inl ⟨hheld, hlast⟩, ht, hts⟩

end Spans

theorem spans_replace (hfree : m.controlled = false) (ha : m.canSelect a) :
    Spans m (m.replace a).model a a (.single a) := by
  have hreplace : m.replace a = m.propose (.keys (.single a)) := if_pos ha
  rw [hreplace]
  refine ⟨sameSetting_propose m _, ?_, rfl, rfl, ?_⟩
  · rw [selection_propose, hfree]
    rfl
  · intro k hk
    rw [KeySet.items_single, List.mem_singleton] at hk
    exact hk ▸ ha

/-! ## Many stretches -/

/-- The end of a range moves along some keys to the last one. What is stored then is the last
stretch, what lingers, and what was there before and has not been covered. -/
theorem exists_spans_run (h : Spans m m' a last held) (hfree : m.controlled = false)
    (hmode : m.mode = .multiple) (ha : m.canSelect a)
    (hts : ∀ t' ∈ ts ++ [t], m.collection.contains t') :
    ∃ final, Spans m (m'.run ((ts ++ [t]).map fun t => .gesture (.extend t))).model a t final ∧
      (∀ x, x ∈ final.items ↔ m.canSelect x ∧ (m.isBetween a t x ∨ m.Lingers a x ts ∨
        x ∈ held.items ∧ ∀ t' ∈ last :: ts, m.canSelect t' → ¬ m.isBetween a t' x)) ∧
      ((∀ t' ∈ last :: ts, m.canSelect t') → (∀ x ∈ held.items, m.isBetween a last x) →
        final.items = m.selectableKeys.filter (m.isBetween a t)) := by
  induction ts generalizing m' last held with
  | nil =>
    have ht : m.collection.contains t := hts t (by simp)
    refine ⟨m'.stretched t, h.extend hfree hmode ha ht, fun x => ?_, fun hlast hheld => ?_⟩
    · have hadmits : x ∈ held.items → m.canSelect x := h.admits x
      rw [h.mem_stretched ha]
      simp only [Lingers, List.mem_singleton, forall_eq]
      grind
    · exact h.items_stretched ha (hlast last (by simp)) hheld
  | cons t₁ ts ih =>
    have ht₁ : m.collection.contains t₁ := hts t₁ (by simp)
    obtain ⟨final, hspans, hfinal, horder⟩ := ih (h.extend hfree hmode ha ht₁)
      (fun t' ht' => hts t' (List.mem_cons_of_mem t₁ ht'))
    refine ⟨final, hspans, fun x => ?_, fun hlast hheld => horder (fun t' ht' => ?_) fun x hx => ?_⟩
    · rw [hfinal]
      exact and_congr_right fun hcan => or_congr_right (h.lingers_or_stays_iff ha hcan)
    · exact hlast t' (List.mem_cons_of_mem last ht')
    · rw [h.items_stretched ha (hlast last (by simp)) hheld] at hx
      exact (List.mem_filter.1 hx).2

/-- From a fresh start nothing was there before but the row itself, which every range covers. -/
theorem exists_spans_drag (hfree : m.controlled = false) (hmode : m.mode = .multiple)
    (ha : m.canSelect a) (hts : ∀ t' ∈ ts ++ [t], m.collection.contains t') :
    ∃ final, Spans m (m.run (drag a (ts ++ [t]))).model a t final ∧
      (∀ x, x ∈ final.items ↔ m.canSelect x ∧ (m.isBetween a t x ∨ m.Lingers a x ts)) ∧
      ((∀ t' ∈ ts, m.canSelect t') → final.items = m.selectableKeys.filter (m.isBetween a t)) := by
  have hself : m.isBetween a a a :=
    isBetween_right (contains_of_canSelect ha) (contains_of_canSelect ha)
  obtain ⟨final, hspans, hfinal, horder⟩ :=
    exists_spans_run (spans_replace hfree ha) hfree hmode ha hts
  refine ⟨final, hspans, fun x => ?_, fun hcan => horder ?_ ?_⟩
  · rw [hfinal]
    refine and_congr_right fun _ => or_congr_right ⟨?_, Or.inl⟩
    rintro (hlingers | ⟨hx, hout⟩)
    · exact hlingers
    · rw [KeySet.items_single, List.mem_singleton] at hx
      subst hx
      exact absurd hself (hout x List.mem_cons_self ha)
  · intro t' ht'
    rcases List.mem_cons.1 ht' with rfl | ht'
    · exact ha
    · exact hcan t' ht'
  · intro x hx
    rw [KeySet.items_single, List.mem_singleton] at hx
    exact hx ▸ hself

/-- **History.** Without an owner, a range that is drawn from a selectable row to another row at
once comes to the selectable rows between the two, in reading order. Drawn there by way of other
rows it comes to the same exactly if the rows that linger on the way are between the two; and it is
the same set, order and ends included, if all rows on the way can be selected. -/
theorem drag_forgets_iff (hfree : m.controlled = false) (hmode : m.mode = .multiple)
    (ha : m.canSelect a) (hts : ∀ t' ∈ ts ++ [t], m.collection.contains t') :
    let way := (m.run (drag a (ts ++ [t]))).model.selectedKeys
    let direct := (m.run (drag a [t])).model.selectedKeys
    direct.items = m.selectableKeys.filter (m.isBetween a t) ∧
      (way.SameMembers direct ↔
        ∀ x, m.canSelect x → m.Lingers a x ts → m.isBetween a t x) ∧
      ((∀ t' ∈ ts, m.canSelect t') → way = direct) := by
  intro way direct
  obtain ⟨final, hway, hmem, horder⟩ := exists_spans_drag hfree hmode ha hts
  obtain ⟨single, hdirect, -, hsingle⟩ :=
    exists_spans_drag hfree hmode ha (show ∀ t' ∈ [] ++ [t], m.collection.contains t' from
      fun t' ht' => hts t' (List.mem_append_right ts ht'))
  have hitems : single.items = m.selectableKeys.filter (m.isBetween a t) := hsingle nofun
  refine ⟨hdirect.selectedKeys.trans hitems, ?_, fun hcan => ?_⟩
  · have hsame : way.SameMembers direct ↔
        ∀ x, x ∈ final.items ↔ m.canSelect x ∧ m.isBetween a t x := by
      refine forall_congr' fun x => ?_
      rw [show way.items = final.items from hway.selectedKeys,
        show direct.items = single.items from hdirect.selectedKeys, hitems, List.mem_filter,
        mem_selectableKeys_iff]
    rw [hsame]
    refine forall_congr' fun x => ?_
    rw [hmem]
    constructor
    · intro hiff hcan hlingers
      exact (hiff.1 ⟨hcan, Or.inr hlingers⟩).2
    · intro hin
      refine and_congr_right fun hcan => ⟨?_, Or.inl⟩
      rintro (hbetween | hlingers)
      · exact hbetween
      · exact hin hcan hlingers
  · have hfinal : final = single :=
      KeySet.ext ((horder hcan).trans hitems.symm) (hway.anchor.trans hdirect.anchor.symm)
        (hway.current.trans hdirect.current.symm)
    calc way = m.resolve (.keys final) := hway.selectedKeys_eq_resolve
      _ = m.resolve (.keys single) := by rw [hfinal]
      _ = direct := hdirect.selectedKeys_eq_resolve.symm

/-- Two enabled rows and a disabled one. -/
def threeRows : Forest (Entry Nat Unit) :=
  .tree (.item 1 "one" ()) .nil (.tree (.item 2 "two" ()) .nil
    (.tree { Entry.item 3 "three" () with disabled := true } .nil .nil))

theorem canSelect_threeRows {c : Collection Nat Unit} (hc : Collection.ofForest threeRows = .ok c)
    (k : Nat) : (SelectionModel.new ⟨0, c⟩ { mode := .multiple }).canSelect k ↔ k = 1 ∨ k = 2 := by
  rw [canSelect_new_iff hc]
  constructor
  · rintro ⟨-, -, n, hn, rfl, -, henabled, -⟩
    have hrows : ∀ n ∈ threeRows.nodes, n.disabled = false → n.key = 1 ∨ n.key = 2 := by decide
    exact hrows n hn henabled
  · rintro (rfl | rfl) <;> decide

theorem isBetween_threeRows {c : Collection Nat Unit} (hc : Collection.ofForest threeRows = .ok c)
    {a b k : Nat} (ha : a < 3) (hb : b < 3) (hk : k < 3) :
    (SelectionModel.new ⟨0, c⟩ { mode := .multiple }).isBetween (a + 1) (b + 1) (k + 1) ↔
      min a b ≤ k ∧ k ≤ max a b := by
  have hrows : ∀ i < 3, threeRows.keys[i]? = some (i + 1) := by decide
  exact isBetween_iff_of_ofForest hc (hrows a ha) (hrows b hb) (hrows k hk)

/-- By way of the enabled row, the range to the disabled one comes to the same. -/
theorem drag_forgets_threeRows :
    ∃ c, Collection.ofForest threeRows = .ok c ∧
      let m := SelectionModel.new ⟨0, c⟩ { mode := .multiple }
      m.controlled = false ∧ m.mode = .multiple ∧ m.canSelect 2 ∧
        (∀ t ∈ [1] ++ [3], m.collection.contains t) ∧
        (m.run (drag 2 ([1] ++ [3]))).model.selectedKeys =
          (m.run (drag 2 [3])).model.selectedKeys := by
  obtain ⟨c, hc⟩ := Collection.exists_ofForest_ok_iff.2 (show threeRows.keys.Nodup by decide)
  have hrows : ∀ t ∈ [1] ++ [3], c.contains t := by
    simp only [Collection.contains_iff_mem_keys, Collection.keys_ofForest hc]
    decide
  have htwo := (canSelect_threeRows hc 2).2 (Or.inr rfl)
  obtain ⟨-, -, hsame⟩ :=
    drag_forgets_iff (m := .new ⟨0, c⟩ { mode := .multiple }) rfl rfl htwo hrows
  refine ⟨c, hc, rfl, rfl, htwo, hrows, hsame fun t ht => ?_⟩
  exact (canSelect_threeRows hc t).2 (Or.inl (List.mem_singleton.1 ht))

/-- By way of the disabled row, the range back to where it starts keeps a row that is not in it. -/
theorem drag_remembers_disabled :
    ∃ c, Collection.ofForest threeRows = .ok c ∧
      let m := SelectionModel.new ⟨0, c⟩ { mode := .multiple }
      m.controlled = false ∧ m.mode = .multiple ∧ m.canSelect 1 ∧
        (∀ t ∈ [3] ++ [1], m.collection.contains t) ∧
        2 ∈ (m.run (drag 1 ([3] ++ [1]))).model.selectedKeys.items ∧
        2 ∉ (m.run (drag 1 [1])).model.selectedKeys.items := by
  obtain ⟨c, hc⟩ := Collection.exists_ofForest_ok_iff.2 (show threeRows.keys.Nodup by decide)
  let m := SelectionModel.new ⟨0, c⟩ { mode := .multiple }
  have hrows : ∀ t ∈ [3] ++ [1], c.contains t := by
    simp only [Collection.contains_iff_mem_keys, Collection.keys_ofForest hc]
    decide
  have hone : m.canSelect 1 := (canSelect_threeRows hc 1).2 (Or.inl rfl)
  have htwo : m.canSelect 2 := (canSelect_threeRows hc 2).2 (Or.inr rfl)
  have hthree : ¬ m.canSelect 3 := by simp [m, canSelect_threeRows hc]
  obtain ⟨way, hway, hmem, -⟩ := exists_spans_drag (m := m) rfl rfl hone hrows
  obtain ⟨direct, hdirect, hdirectMem, -⟩ :=
    exists_spans_drag (m := m) rfl rfl hone (show ∀ t ∈ [] ++ [1], m.collection.contains t from
      fun t ht => hrows t (List.mem_append_right _ ht))
  refine ⟨c, hc, rfl, rfl, hone, hrows, ?_, ?_⟩
  · have hbetween : m.isBetween 1 3 2 :=
      (isBetween_threeRows hc (a := 0) (b := 2) (k := 1) (by decide) (by decide) (by decide)).2
        (by decide)
    rw [hway.selectedKeys, hmem]
    exact ⟨htwo, Or.inr (Or.inl ⟨hthree, hbetween, nofun⟩)⟩
  · have hapart : ¬ m.isBetween 1 1 2 := fun h =>
      absurd ((isBetween_threeRows hc (a := 0) (b := 0) (k := 1) (by decide) (by decide)
        (by decide)).1 h) (by decide)
    intro h
    have hin : 2 ∈ direct.items := hdirect.selectedKeys ▸ h
    rcases ((hdirectMem 2).1 hin).2 with hbetween | hlingers
    · exact hapart hbetween
    · exact hlingers

end Listbox.SelectionModel
