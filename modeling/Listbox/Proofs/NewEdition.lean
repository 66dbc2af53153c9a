import Listbox.Proofs.Choosing
import Listbox.Proofs.FocusMoves

set_option autoImplicit false

/-! # Moving on to a new edition

A model that is handed another edition of its rows looks after two things at once. A focused row that
the edition lacks gives way to the row that is nearest to where it stood: the positions are those of
the old edition, and the rows that may have the focus those of the new one (`Nearest`). And the stored
keys that can no longer be selected are dropped, while "all" stays what it is.

`reachable_movesOn` says both of every reachable model and every edition. -/

universe u v

namespace Listbox.SelectionModel

variable {K : Type u} {T : Type v} [DecidableEq K] [Hashable K]
variable {m m' : SelectionModel K T} {e : Edition K T} {k : K} {i p : Nat}

/-! ## The nearest row -/

/-- The node is an item of the collection that is not disabled. -/
def MayFocus (m : SelectionModel K T) (n : Node K T) : Prop :=
  n ∈ m.collection.toList ∧ n.isItem = true ∧ m.isDisabled n.key = false

/-- The key is that of the row nearest to position `p` that may have the focus: the first from there
on, without one the last before, and none if there is no row at all. -/
inductive Nearest (m : SelectionModel K T) (p : Nat) : Option K → Prop where
  | after (n : Node K T) (hn : m.MayFocus n) (hp : p ≤ n.index)
      (hleast : ∀ x, m.MayFocus x → p ≤ x.index → n.index ≤ x.index) : Nearest m p (some n.key)
  | before (n : Node K T) (hnone : ∀ x, m.MayFocus x → x.index < p) (hn : m.MayFocus n)
      (hgreatest : ∀ x, m.MayFocus x → x.index ≤ n.index) : Nearest m p (some n.key)
  | nowhere (hnone : ∀ x, ¬ m.MayFocus x) : Nearest m p none

theorem mayFocus_iff {n : Node K T} :
    m.MayFocus n ↔ n ∈ m.collection.toList ∧ m.isFocusable n = true := by
  rw [MayFocus, isFocusable, Bool.and_eq_true, Bool.not_eq_true']

/-- If no key is disabled apart from the rows, which rows may have the focus is read off the
forest. -/
theorem mayFocus_iff_of_ofForest {f : Forest (Entry K T)} {n : Node K T}
    (hf : Collection.ofForest f = .ok m.collection) (hbehavior : m.config.disabledBehavior = .all)
    (hkeys : ∀ k, m.disabledKeys.contains k = false) :
    m.MayFocus n ↔ n ∈ f.nodes ∧ n.isItem = true ∧ n.disabled = false := by
  rw [MayFocus, ← Collection.toList_ofForest hf]
  refine and_congr_right fun hn => and_congr_right fun _ => ?_
  have hdisabled : m.isDisabled n.key = true ↔ n.disabled = true := by
    rw [isDisabled_iff, and_iff_right hbehavior, hkeys, or_iff_right Bool.false_ne_true]
    constructor
    · rintro ⟨n', hn', hkey, hdisabled⟩
      rwa [← Collection.eq_of_key_eq hn' hn hkey]
    · exact fun hdisabled => ⟨n, hn, rfl, hdisabled⟩
  rw [← Bool.not_eq_true, hdisabled, Bool.not_eq_true]

/-- A row is nearest if the search finds it. -/
theorem nearest_nearestFocusable? (m : SelectionModel K T) (i : Nat) :
    m.Nearest (min i (m.collection.size - 1)) (m.nearestFocusable? i) := by
  unfold nearestFocusable?
  simp only
  generalize min i (m.collection.size - 1) = p
  cases hafter : m.collection.findFrom? m.isFocusable p with
  | some n =>
    obtain ⟨⟨hn, hfocusable, hp⟩, hleast⟩ := Collection.findFrom?_eq_some_iff.1 hafter
    refine .after n (mayFocus_iff.2 ⟨hn, hfocusable⟩) hp fun x hx => ?_
    obtain ⟨hx, hfocusable⟩ := mayFocus_iff.1 hx
    exact hleast x hx hfocusable
  | none =>
    have hnone : ∀ x, m.MayFocus x → x.index < p := by
      intro x hx
      obtain ⟨hx, hfocusable⟩ := mayFocus_iff.1 hx
      exact Collection.findFrom?_eq_none_iff.1 hafter x hx hfocusable
    cases hbefore : m.collection.findBefore? m.isFocusable p with
    | some n =>
      obtain ⟨⟨hn, hfocusable, -⟩, hgreatest⟩ := Collection.findBefore?_eq_some_iff.1 hbefore
      refine .before n hnone (mayFocus_iff.2 ⟨hn, hfocusable⟩) fun x hx => ?_
      exact hgreatest x (mayFocus_iff.1 hx).1 (mayFocus_iff.1 hx).2 (hnone x hx)
    | none =>
      refine .nowhere fun x hx => ?_
      have hle := Collection.findBefore?_eq_none_iff.1 hbefore x (mayFocus_iff.1 hx).1
        (mayFocus_iff.1 hx).2
      exact Nat.not_lt.2 hle (hnone x hx)

/-- Two nodes at one position are one. -/
theorem MayFocus.key_eq {n n' : Node K T} (hn : m.MayFocus n) (hn' : m.MayFocus n')
    (h : n.index = n'.index) : n.key = n'.key := by
  have hat := Collection.getElem?_toList_eq_some_iff.2 ⟨hn.1, h⟩
  rw [Collection.getElem?_toList_eq_some_iff.2 ⟨hn'.1, rfl⟩] at hat
  rw [Option.some.inj hat]

/-- There is one nearest row at most. -/
theorem Nearest.unique {k k' : Option K} (h : m.Nearest p k) (h' : m.Nearest p k') : k = k' := by
  cases h with
  | after n hn hp hleast =>
    cases h' with
    | after n' hn' hp' hleast' =>
      rw [hn.key_eq hn' (Nat.le_antisymm (hleast n' hn' hp') (hleast' n hn hp))]
    | before n' hnone' hn' hgreatest' => exact absurd (hnone' n hn) (Nat.not_lt.2 hp)
    | nowhere hnone' => exact absurd hn (hnone' n)
  | before n hnone hn hgreatest =>
    cases h' with
    | after n' hn' hp' hleast' => exact absurd (hnone n' hn') (Nat.not_lt.2 hp')
    | before n' hnone' hn' hgreatest' =>
      rw [hn.key_eq hn' (Nat.le_antisymm (hgreatest' n hn) (hgreatest n' hn'))]
    | nowhere hnone' => exact absurd hn (hnone' n)
  | nowhere hnone =>
    cases h' with
    | after n' hn' _ _ => exact absurd hn' (hnone n')
    | before n' _ hn' _ => exact absurd hn' (hnone n')
    | nowhere _ => rfl

/-- Only the rows count. -/
theorem SameRows.nearestFocusable? (h : SameRows m m') (i : Nat) :
    m'.nearestFocusable? i = m.nearestFocusable? i := by
  have hfocusable : m'.isFocusable = m.isFocusable := by
    funext n
    rw [isFocusable, isFocusable, h.isDisabled_eq]
  simp only [SelectionModel.nearestFocusable?, hfocusable, collection, h.edition]

/-! ## What becomes of the focus and of the stored keys -/

theorem refocus_of_known (h : ∀ k, m.focus.key = some k → e.collection.contains k) :
    m.refocus e = m.focus := by
  unfold refocus
  split
  · rfl
  · next k hk => exact if_pos (h k hk)

/-- The old collection says where the search starts. -/
theorem refocus_of_gone (hk : m.focus.key = some k) (hgone : ¬ e.collection.contains k)
    (hi : m.collection.position? k = some i) :
    m.refocus e = { m.focus with
      key := { m with edition := e }.nearestFocusable? i, child := none } := by
  rw [Collection.position?_eq_map_index] at hi
  obtain ⟨n, hn, rfl⟩ := Option.map_eq_some_iff.1 hi
  simp only [refocus, hk, if_neg hgone, hn, Option.bind_some]

theorem hasKeys_prune {s : KeySet K} (hfree : m.controlled = false) (hs : m.selection = .keys s) :
    m.prune.model.selection.HasKeys (s.items.filter m.canSelect) := by
  rcases prune_cases m with ⟨hadmits, hstill⟩ | ⟨s', hs', -, hadopt⟩
  · rw [hs] at hadmits
    rw [hstill]
    exact ⟨s, hs, (List.filter_eq_self.2 hadmits).symm⟩
  · cases hs.symm.trans hs'
    rw [hadopt, selection_adopt, hfree]
    exact ⟨_, rfl, KeySet.items_filter ..⟩

theorem prune_of_all (h : m.selection = .all) : m.prune = m.still := by
  simp only [prune, h]

/-- The model `r` is what `m` becomes with the edition `e`. -/
structure MovesOn (m : SelectionModel K T) (e : Edition K T) (r : SelectionModel K T) : Prop where
  edition : r.edition = e
  config : r.config = m.config
  disabledKeys : r.disabledKeys = m.disabledKeys
  /-- A focus on no row, or on a row that is still there, stays. -/
  stays : (∀ k, m.focus.key = some k → e.collection.contains k) → r.focus = m.focus
  /-- A focus on a row that is gone moves to the row nearest to where that stood, or to the end if
  the new collection is too short for that. -/
  moves : ∀ k, m.focus.key = some k → ¬ e.collection.contains k →
    ∃ i key, m.collection.position? k = some i ∧
      r.Nearest (min i (e.collection.size - 1)) key ∧
      r.focus = { m.focus with key, child := none }
  /-- Stored keys stay in order if nobody owns them. -/
  keys : m.controlled = false → ∀ s, m.selection = .keys s →
    r.selection.HasKeys (s.items.filter r.canSelect)
  all : m.selection = .all → r.selection = .all

theorem Consistent.movesOn_setEdition (h : m.Consistent) (hnew : e.number ≠ m.edition.number) :
    MovesOn m e (m.setEdition e).model := by
  let moved : SelectionModel K T := { m with edition := e, focus := m.refocus e }
  have hset : m.setEdition e = moved.prune := if_neg hnew
  have hs : SameSetting moved moved.prune.model := sameSetting_prune moved
  have hrows : SameRows { m with edition := e } moved.prune.model :=
    ⟨hs.edition, hs.config, hs.disabledKeys⟩
  rw [hset]
  refine ⟨hs.edition, hs.config, hs.disabledKeys, fun hknown => ?_, fun k hk hgone => ?_,
    fun hfree s hsel => ?_, fun hall => ?_⟩
  · exact hs.focus.trans (refocus_of_known hknown)
  · obtain ⟨i, hi⟩ := Option.isSome_iff_exists.1 (h.focus k hk)
    refine ⟨i, _, hi, ?_, hs.focus.trans (refocus_of_gone hk hgone hi)⟩
    rw [← hrows.nearestFocusable? i]
    have hnearest := nearest_nearestFocusable? moved.prune.model i
    rwa [hs.collection] at hnearest
  · rw [hs.canSelect]
    exact hasKeys_prune (m := moved) hfree hsel
  · rw [prune_of_all (m := moved) hall]
    exact hall

/-- **New editions.** Every reachable model moves on to a new edition: the focus and the stored keys
stay where they can, and otherwise the focus goes to the nearest row and the keys are dropped. The
edition that a model has already changes nothing. -/
theorem reachable_movesOn {start : SelectionModel K T} (h : Built start)
    (ops : List (Operation K T)) (hm : m = (start.run ops).model) (e : Edition K T) :
    (e.number = m.edition.number → m.setEdition e = m.still) ∧
    (e.number ≠ m.edition.number → MovesOn m e (m.setEdition e).model) := by
  have hconsistent : m.Consistent := hm ▸ h.consistent.run ops
  exact ⟨fun hsame => if_pos hsame, hconsistent.movesOn_setEdition⟩

/-- Next to a disabled row at the end stands the one before it. -/
theorem nearest_twoRows {m : SelectionModel Nat Unit}
    (h : Collection.ofForest twoRows = .ok m.collection) (hbehavior : m.config.disabledBehavior = .all)
    (hkeys : ∀ k, m.disabledKeys.contains k = false) : m.Nearest 1 (some 1) := by
  have hrows : ∀ n, m.MayFocus n ↔ n ∈ twoRows.nodes ∧ n.isItem = true ∧ n.disabled = false :=
    fun n => mayFocus_iff_of_ofForest h hbehavior hkeys
  have hfirst : ∀ n, m.MayFocus n → n.index = 0 := by
    intro n hn
    obtain ⟨hmem, -, henabled⟩ := (hrows n).1 hn
    exact (by decide : ∀ n ∈ twoRows.nodes, n.disabled = false → n.index = 0) n hmem henabled
  obtain ⟨n, hmem, hkey, hrow⟩ : ∃ n ∈ twoRows.nodes,
      n.key = 1 ∧ n.isItem = true ∧ n.disabled = false := by decide
  have hn : m.MayFocus n := (hrows n).2 ⟨hmem, hrow⟩
  have hnearest : m.Nearest 1 (some n.key) := by
    refine .before n (fun x hx => ?_) hn fun x hx => ?_
    · rw [hfirst x hx]
      exact Nat.one_pos
    · rw [hfirst x hx]
      exact Nat.zero_le _
  rwa [hkey] at hnearest

theorem canSelect_twoRows {d : Collection Nat Unit} (hd : Collection.ofForest twoRows = .ok d)
    (k : Nat) : (SelectionModel.new ⟨1, d⟩ (followOnly .multiple)).canSelect k = decide (k = 1) := by
  rw [Bool.eq_iff_iff, canSelect_new_iff hd, decide_eq_true_eq]
  constructor
  · rintro ⟨-, -, n, hn, rfl, -, henabled, -⟩
    exact (by decide : ∀ n ∈ twoRows.nodes, n.disabled = false → n.key = 1) n hn henabled
  · rintro rfl
    decide

/-- The last of many rows had the focus, and two rows are left. Its place is past the end, the row at
the end is disabled, and the focus goes back to the first, which alone stays selected. -/
theorem reachable_movesOn_twoRows :
    ∃ c d, Collection.ofForest mixedRows = .ok c ∧ Collection.ofForest twoRows = .ok d ∧
      let start := (SelectionModel.new ⟨0, c⟩ (followOnly .multiple)).withSelection
        (.keys (.ofList [5, 2, 1]))
      let m := (start.run [.setFocusedKey (some 5) (some .first)]).model
      let r := (m.setEdition ⟨1, d⟩).model
      Built start ∧ 1 ≠ m.edition.number ∧ m.selection.HasKeys [5, 2, 1] ∧
        m.focus = ⟨some 5, some .first, false, false⟩ ∧
        r.selection.HasKeys [1] ∧ r.focus = ⟨some 1, none, false, false⟩ := by
  obtain ⟨c, hc⟩ := Collection.exists_ofForest_ok_iff.2 (show mixedRows.keys.Nodup by decide)
  obtain ⟨d, hd⟩ := Collection.exists_ofForest_ok_iff.2 (show twoRows.keys.Nodup by decide)
  let bare := SelectionModel.new ⟨0, c⟩ (followOnly .multiple)
  let start := bare.withSelection (.keys (.ofList [5, 2, 1]))
  have hbuilt : Built start := .withSelection (.new ⟨0, c⟩ _) _
  have hwanted : bare.wanted [5, 2, 1] = [5, 2, 1] := by
    change [5, 2, 1].eraseDups.filter bare.canSelect = _
    rw [funext (canSelect_mixedRows hc)]
    rfl
  have hstored : start.selection.HasKeys [5, 2, 1] := hwanted ▸ bare.hasKeys_admissible [5, 2, 1]
  have hposition : c.position? 5 = some 5 := (Collection.position?_ofForest hc).2 rfl
  let m : SelectionModel Nat Unit :=
    { start with focus := ⟨some 5, some .first, false, false⟩ }
  have hm : m = (start.run [.setFocusedKey (some 5) (some .first)]).model := by
    have hfive : c.contains 5 := Option.isSome_iff_exists.2 ⟨5, hposition⟩
    exact (if_pos hfive).symm
  obtain ⟨-, hmoves⟩ := reachable_movesOn hbuilt _ hm ⟨1, d⟩
  have hmoved := hmoves Nat.one_ne_zero
  refine ⟨c, d, hc, hd, hbuilt, ?_⟩
  rw [← hm]
  generalize (m.setEdition ⟨1, d⟩).model = r at hmoved ⊢
  have hkeys : ∀ k, r.disabledKeys.contains k = false := fun k => by
    rw [hmoved.disabledKeys]
    exact Std.HashSet.contains_ofList.trans rfl
  refine ⟨Nat.one_ne_zero, hstored, rfl, ?_, ?_⟩
  · obtain ⟨s, hs, hitems⟩ := hstored
    have hcan : r.canSelect = fun k => decide (k = 1) := by
      rw [← funext (canSelect_twoRows hd)]
      exact canSelect_congr hmoved.edition (congrArg (·.mode) hmoved.config)
        (congrArg (·.linkBehavior) hmoved.config) fun k => by rw [hmoved.disabledKeys]; rfl
    have hkept := hmoved.keys rfl s hs
    rw [hitems, hcan] at hkept
    exact hkept
  · have hgone : ¬ d.contains 5 := by
      rw [Collection.contains_iff_mem_keys, Collection.keys_ofForest hd]
      decide
    obtain ⟨i, key, hi, hnearest, hfocus⟩ := hmoved.moves 5 rfl hgone
    cases hposition.symm.trans hi
    have hsize : d.size = 2 := by
      rw [← Collection.length_keys, Collection.keys_ofForest hd]
      rfl
    rw [hsize] at hnearest
    have hrows : Collection.ofForest twoRows = .ok r.collection := by
      rw [collection, hmoved.edition]
      exact hd
    rw [hfocus, hnearest.unique
      (nearest_twoRows hrows (congrArg (·.disabledBehavior) hmoved.config) hkeys)]

end Listbox.SelectionModel
