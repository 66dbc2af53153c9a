import Listbox.Proofs.Searching

set_option autoImplicit false

/-! # Pages in a stack

The stops of a navigator are numbered in reading order. In a stack a page from a stop adds the number
of its rows to that rank, or takes it away, and stops short at the last or the first of all stops. Only
where the content is known to be in view as a whole does a page go to the end at once. A page never
comes back at the other end, even if single steps do (`pages_count_stops`). -/

universe u v

namespace Listbox

/-! ## Extents -/

/-- How far a rectangle reaches along the axis on which the list scrolls. -/
def Rect.extent (r : Rect) : Orientation → Float
  | .vertical => r.height
  | .horizontal => r.width

/-- How far a size reaches along the axis on which the list scrolls. -/
def Size.extent (s : Size) : Orientation → Float
  | .vertical => s.height
  | .horizontal => s.width

/-! ## Ranks in a list -/

section

variable {α : Type u} {l xs ys : List α} {a : α}

/-- What stands at a place, with what stands before and behind it. -/
theorem exists_append_cons_of_getElem? {i : Nat} (h : l[i]? = some a) :
    ∃ xs ys, l = xs ++ a :: ys ∧ xs.length = i := by
  obtain ⟨hi, rfl⟩ := List.getElem?_eq_some_iff.1 h
  refine ⟨l.take i, l.drop (i + 1), ?_, List.length_take_of_le (Nat.le_of_lt hi)⟩
  rw [List.getElem_cons_drop, List.take_append_drop]

/-- At most `n` places on from `a`. -/
theorem getElem?_min_of_eq_append_cons (h : l = xs ++ a :: ys) (n : Nat) :
    l[min (xs.length + n) (l.length - 1)]? = some ((ys.take n).getLast?.getD a) := by
  have hplace : min (xs.length + n) (l.length - 1) = xs.length + min n ys.length := by
    rw [h, List.length_append, List.length_cons]
    omega
  rw [hplace, h, List.getElem?_append_right (Nat.le_add_right ..), Nat.add_sub_cancel_left,
    ← List.getLast?_cons, ← List.take_succ_cons, List.getLast?_eq_getElem?, List.length_take,
    List.length_cons, Nat.add_min_add_right, Nat.add_sub_cancel, List.getElem?_take, if_pos]
  omega

/-- At most `n` places back from `a`. -/
theorem getElem?_sub_of_eq_append_cons (h : l = xs ++ a :: ys) (n : Nat) :
    l[xs.length - min n xs.length]? = some ((xs.reverse.take n).getLast?.getD a) := by
  -- back through the list is on through the list reversed
  have hback : l.reverse = ys.reverse ++ a :: xs.reverse := by simp [h]
  have hon := getElem?_min_of_eq_append_cons hback n
  rw [← hon, List.getElem?_reverse]
  · congr 1
    rw [h]
    simp only [List.length_reverse, List.length_append, List.length_cons]
    omega
  · rw [h]
    simp only [List.length_reverse, List.length_append, List.length_cons]
    omega

end

namespace Navigator

variable {K : Type u} {T : Type v} [DecidableEq K] [Hashable K]
variable {v : Navigator K T} {xs ys : List K} {k : K} {forward : Bool} {r n : Nat}

/-! ## How far a page goes -/

/-- The layout that has measured `k`, with the rectangle of `k`. -/
def measured? (v : Navigator K T) (k : K) : Option (Layout K × Rect) :=
  v.layout.bind fun layout => (layout.rect? k).map fun rect => (layout, rect)

/-- `k` is measured, and all the content is in view. -/
def Fits (v : Navigator K T) (k : K) : Prop :=
  ∃ layout rect, v.measured? k = some (layout, rect) ∧
    layout.content.extent v.config.orientation ≤ layout.visible.extent v.config.orientation

/-- How many rows a page from `k` has: as many as there is room for in view if `k` is measured, and
otherwise as many as are configured, but not none. -/
def rows (v : Navigator K T) (k : K) : Nat :=
  match v.measured? k with
  | some (layout, rect) =>
    rowsPerPage (layout.visible.extent v.config.orientation) (rect.extent v.config.orientation)
  | none => max v.config.pageSize 1

theorem one_le_rowsPerPage (visible item : Float) : 1 ≤ rowsPerPage visible item := by
  unfold rowsPerPage
  split
  · exact Nat.le_max_right ..
  · exact Nat.le_refl 1

-- a row only part of which is in view does not count
example : rowsPerPage 99 20 = 4 := by decide

theorem one_le_rows (v : Navigator K T) (k : K) : 1 ≤ v.rows k := by
  unfold rows
  split
  · exact one_le_rowsPerPage ..
  · exact Nat.le_max_right ..

theorem pageSteps?_of_fits (h : v.Fits k) : v.pageSteps? k = none := by
  obtain ⟨layout, rect, hmeasured, hfits⟩ := h
  rw [measured?] at hmeasured
  rw [pageSteps?, hmeasured]
  cases horientation : v.config.orientation with
  | vertical | horizontal =>
    rw [horientation] at hfits
    exact if_pos hfits

theorem pageSteps?_of_not_fits (h : ¬ v.Fits k) : v.pageSteps? k = some (v.rows k) := by
  cases hmeasured : v.measured? k with
  | none =>
    rw [rows, hmeasured]
    rw [measured?] at hmeasured
    rw [pageSteps?, hmeasured]
  | some m =>
    have hnot := fun hfits => h ⟨m.1, m.2, hmeasured, hfits⟩
    rw [rows, hmeasured]
    rw [measured?] at hmeasured
    rw [pageSteps?, hmeasured]
    cases horientation : v.config.orientation with
    | vertical | horizontal =>
      rw [horientation] at hnot
      exact if_neg hnot

/-! ## What a page does not look at -/

section

variable {config : NavigationConfig}
variable (harrangement : config.arrangement = v.config.arrangement)
variable (horientation : config.orientation = v.config.orientation)

include harrangement horientation

theorem vertical?_withConfig :
    ({ v with config } : Navigator K T).vertical? forward k = v.vertical? forward k := by
  simp only [vertical?, harrangement, horientation]
  rfl

theorem advance_withConfig (n : Nat) (k : K) :
    ({ v with config } : Navigator K T).advance forward n k = v.advance forward n k := by
  induction n generalizing k with
  | zero => rfl
  | succ n ih =>
    rw [advance, advance, vertical?_withConfig harrangement horientation]
    cases v.vertical? forward k with
    | none => rfl
    | some next => exact ih next

/-- A page looks neither at the direction of writing nor at whether the ends are joined. -/
theorem page?_withConfig (hpageSize : config.pageSize = v.config.pageSize) :
    ({ v with config } : Navigator K T).page? forward k = v.page? forward k := by
  have hsteps : ({ v with config } : Navigator K T).pageSteps? k = v.pageSteps? k := by
    simp only [pageSteps?, horientation, hpageSize]
  rw [page?, page?, hsteps]
  simp only [advance_withConfig harrangement horientation]
  rfl

end

/-! ## Pages by rank -/

section Stack

variable (hstack : v.config.arrangement = .stack)

include hstack

/-- Steps from a stop, among the stops. -/
theorem advance_of_stops_eq (h : v.stops = xs ++ k :: ys) (n : Nat) :
    v.advance true n k = (ys.take n).getLast?.getD k ∧
      v.advance false n k = (xs.reverse.take n).getLast?.getD k := by
  obtain ⟨before, after, hsplit, hxs, -, hys⟩ := exists_of_filter_eq_append_cons h
  rw [advance_true hstack n hsplit, advance_false hstack n hsplit, hxs, hys]
  exact ⟨rfl, rfl⟩

/-- Steps from a stop, by its rank. -/
theorem advance_of_getElem?_stops (h : v.stops[r]? = some k) (n : Nat) :
    some (v.advance true n k) = v.stops[min (r + n) (v.stops.length - 1)]? ∧
      some (v.advance false n k) = v.stops[r - min n r]? := by
  obtain ⟨xs, ys, hsplit, rfl⟩ := exists_append_cons_of_getElem? h
  obtain ⟨hbelow, habove⟩ := advance_of_stops_eq hstack hsplit n
  rw [hbelow, habove, getElem?_min_of_eq_append_cons hsplit, getElem?_sub_of_eq_append_cons hsplit]
  exact ⟨rfl, rfl⟩

end Stack

theorem contains_of_mem_stops (h : k ∈ v.stops) : v.collection.contains k = true :=
  Collection.contains_iff_mem_keys.2 (List.mem_of_mem_filter h)

theorem page?_of_no_steps (hk : k ∈ v.stops) (h : v.pageSteps? k = none) :
    v.page? forward k = if forward then v.last? else v.first? := by
  rw [page?, if_pos (contains_of_mem_stops hk), h]

theorem page?_of_steps (hk : k ∈ v.stops) (h : v.pageSteps? k = some n) :
    v.page? forward k = some (v.advance forward n k) := by
  rw [page?, if_pos (contains_of_mem_stops hk), h]

/-- Where all the content is in view, a page goes to the end. -/
theorem pages_of_fits (hk : k ∈ v.stops) (h : v.Fits k) :
    v.pageBelow? k = v.stops.getLast? ∧ v.pageAbove? k = v.stops.head? := by
  have hnone := pageSteps?_of_fits h
  rw [← last?_eq_getLast?_stops, ← first?_eq_head?_stops]
  exact ⟨page?_of_no_steps hk hnone, page?_of_no_steps hk hnone⟩

/-- Elsewhere a page counts rows. -/
theorem pages_of_not_fits (hstack : v.config.arrangement = .stack) (hk : v.stops[r]? = some k)
    (h : ¬ v.Fits k) :
    v.pageBelow? k = v.stops[min (r + v.rows k) (v.stops.length - 1)]? ∧
      v.pageAbove? k = v.stops[r - min (v.rows k) r]? := by
  have hmem : k ∈ v.stops := List.mem_of_getElem? hk
  have hsome := pageSteps?_of_not_fits h
  obtain ⟨hbelow, habove⟩ := advance_of_getElem?_stops hstack hk (v.rows k)
  rw [← hbelow, ← habove]
  exact ⟨page?_of_steps hmem hsome, page?_of_steps hmem hsome⟩

/-- **Pages.** Let `k` be the stop of rank `r`. If `k` is measured and all the content is in view, a
page goes to the last stop or to the first. Otherwise it goes as many ranks down or up as the page has
rows, at least one, and no further than to the last stop or to the first. So there always is a target,
down it is no earlier than `k` and up no later, and joining the ends makes no difference. -/
theorem pages_count_stops (v : Navigator K T) (hstack : v.config.arrangement = .stack) (r : Nat)
    (k : K) (hk : v.stops[r]? = some k) :
    (¬ v.Fits k →
      v.pageBelow? k = v.stops[min (r + v.rows k) (v.stops.length - 1)]? ∧
      v.pageAbove? k = v.stops[r - min (v.rows k) r]?) ∧
    (v.Fits k → v.pageBelow? k = v.stops.getLast? ∧ v.pageAbove? k = v.stops.head?) ∧
    1 ≤ v.rows k ∧
    (∃ s, r ≤ s ∧ s < v.stops.length ∧ v.pageBelow? k = v.stops[s]?) ∧
    (∃ s, s ≤ r ∧ s < v.stops.length ∧ v.pageAbove? k = v.stops[s]?) ∧
    (∀ wraps forward,
      ({ v with config := { v.config with wraps } } : Navigator K T).page? forward k =
        v.page? forward k) := by
  have hr : r < v.stops.length := (List.getElem?_eq_some_iff.1 hk).1
  have hmem : k ∈ v.stops := List.mem_of_getElem? hk
  refine ⟨pages_of_not_fits hstack hk, pages_of_fits hmem, v.one_le_rows k, ?_, ?_,
    fun wraps forward => page?_withConfig rfl rfl rfl⟩
  · by_cases hfits : v.Fits k
    · refine ⟨v.stops.length - 1, by omega, by omega, ?_⟩
      rw [(pages_of_fits hmem hfits).1, List.getLast?_eq_getElem?]
    · exact ⟨_, by omega, by omega, (pages_of_not_fits hstack hk hfits).1⟩
  · by_cases hfits : v.Fits k
    · refine ⟨0, by omega, by omega, ?_⟩
      rw [(pages_of_fits hmem hfits).2, List.head?_eq_getElem?]
    · exact ⟨_, Nat.sub_le .., by omega, (pages_of_not_fits hstack hk hfits).2⟩

/-- Of the orchard the pear, the prune and the apple can take the focus. -/
theorem stops_orchard {c : Collection Nat Unit} (hc : Collection.ofForest orchard = .ok c)
    (config : NavigationConfig) (layout : Option (Layout Nat)) :
    ({ new c config with layout } : Navigator Nat Unit).stops = [1, 3, 5] := by
  have hfocusable : ({ new c config with layout } : Navigator Nat Unit).isFocusable =
      fun n => n.isItem && !n.disabled := by
    funext n
    simp [isFocusable, isDisabled, new]
  rw [stops_eq_map, hfocusable]
  change (c.toList.filter _).map _ = _
  rw [Collection.toList_ofForest hc]
  decide

/-- The orchard with only its first row measured, seen through a window of this height. -/
def throughWindow (c : Collection Nat Unit) (height : Float) : Navigator Nat Unit :=
  { new c { wraps := true, pageSize := 7 } with
    layout := some
      { rect? := fun k => if k = 1 then some ⟨0, 0, 50, 20⟩ else none
        visible := ⟨0, 0, 50, height⟩
        content := ⟨50, 100⟩ } }

theorem not_fits_throughWindow {c : Collection Nat Unit} {height : Float}
    (hlong : ¬ (100 : Float) ≤ height - 0) : ¬ (throughWindow c height).Fits 1 := by
  rintro ⟨layout, rect, hmeasured, hfits⟩
  cases hmeasured
  exact hlong hfits

/-- Pages of one row and of two from the measured row, pages of seven rows cut short at the ends from
one that is not measured, and a page through a window in which all the rows have room. -/
theorem pages_count_stops_orchard :
    ∃ c, Collection.ofForest orchard = .ok c ∧
      let v := throughWindow c 30
      let u := throughWindow c 50
      let w := throughWindow c 100
      v.config.arrangement = .stack ∧ v.stops[0]? = some 1 ∧ v.stops[1]? = some 3 ∧
        ¬ v.Fits 1 ∧ v.rows 1 = 1 ∧ v.pageBelow? 1 = some 3 ∧
        ¬ u.Fits 1 ∧ u.rows 1 = 2 ∧ u.pageBelow? 1 = some 5 ∧
        ¬ v.Fits 3 ∧ v.rows 3 = 7 ∧ v.pageBelow? 3 = some 5 ∧ v.pageAbove? 3 = some 1 ∧
        w.Fits 1 ∧ w.pageBelow? 1 = some 5 := by
  obtain ⟨c, hc⟩ := Collection.exists_ofForest_ok_iff.2 (show orchard.keys.Nodup by decide)
  have hstops : ∀ height, (throughWindow c height).stops = [1, 3, 5] := fun height =>
    stops_orchard hc { wraps := true, pageSize := 7 } _
  have hfirst : ∀ height, (throughWindow c height).stops[0]? = some 1 := fun height => by
    rw [hstops]
    rfl
  have hsecond : (throughWindow c 30).stops[1]? = some 3 := by
    rw [hstops]
    rfl
  have hpart : ¬ (throughWindow c 30).Fits 1 := not_fits_throughWindow (by decide)
  have hhalf : ¬ (throughWindow c 50).Fits 1 := not_fits_throughWindow (by decide)
  have hunmeasured : ¬ (throughWindow c 30).Fits 3 := by
    rintro ⟨layout, rect, hmeasured, -⟩
    cases hmeasured
  have hwhole : (throughWindow c 100).Fits 1 :=
    ⟨_, _, rfl, show (100 : Float) ≤ 100 - 0 by decide⟩
  have hone : (throughWindow c 30).rows 1 = 1 := by
    change rowsPerPage (30 - 0) (20 - 0) = 1
    decide
  have htwo : (throughWindow c 50).rows 1 = 2 := by
    change rowsPerPage (50 - 0) (20 - 0) = 2
    decide
  have hbelow := ((pages_count_stops _ rfl 0 1 (hfirst 30)).1 hpart).1
  have hfurther := ((pages_count_stops _ rfl 0 1 (hfirst 50)).1 hhalf).1
  have hpages := (pages_count_stops _ rfl 1 3 hsecond).1 hunmeasured
  have hend := ((pages_count_stops _ rfl 0 1 (hfirst 100)).2.1 hwhole).1
  rw [hone, hstops] at hbelow
  rw [htwo, hstops] at hfurther
  rw [hstops] at hpages hend
  exact ⟨c, hc, rfl, hfirst 30, hsecond, hpart, hone, hbelow, hhalf, htwo, hfurther, hunmeasured,
    rfl, hpages.1, hpages.2, hwhole, hend⟩

end Navigator

end Listbox
