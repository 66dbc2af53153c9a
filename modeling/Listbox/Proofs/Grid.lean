import Mathlib
import Listbox.Proofs.Paging

set_option autoImplicit false

/-! # Columns of a grid

In a grid that scrolls down, a step down or up goes from a measured row to the nearest stop in the same
column and another line of the layout, and no further than to one that is not measured. Where all stops
are measured and no two start at the same point, a column is a chain: the two steps undo each other.
Where the stops fill lines of the same length, a step down goes that many stops on
(`grid_follows_columns`).

Coordinates are compared as numbers. That is symmetric and transitive whatever they are, and all that
fails for something that is not a number is that it equals itself. -/

universe u v

namespace Listbox

/-! ## Finding the nearest -/

section

variable {α : Type u} {p : α → Bool} {l : List α} {a : α} {n : Nat}

/-- The last one for which the condition holds, with what it does not hold for. -/
theorem find?_reverse_eq_some_iff_between : l.reverse.find? p = some a ↔
    p a = true ∧ ∃ rest between, l = rest ++ a :: between ∧ ∀ c ∈ between, !p c := by
  rw [List.find?_eq_some_iff_append]
  refine and_congr_right fun _ => ?_
  constructor
  · rintro ⟨between, rest, hback, hover⟩
    rw [List.reverse_eq_iff, List.reverse_append, List.reverse_cons, List.append_assoc] at hback
    exact ⟨rest.reverse, between.reverse, hback, fun c hc => hover c (List.mem_reverse.1 hc)⟩
  · rintro ⟨rest, between, rfl, hover⟩
    exact ⟨between.reverse, rest.reverse, by simp, fun c hc => hover c (List.mem_reverse.1 hc)⟩

/-- What is found is at the first place where the condition holds. -/
theorem find?_eq_getElem? (hbefore : ∀ j x, j < n → l[j]? = some x → p x = false)
    (hat : ∀ x, l[n]? = some x → p x = true) : l.find? p = l[n]? := by
  induction n generalizing l with
  | zero =>
    cases l with
    | nil => rfl
    | cons x xs => exact List.find?_cons_of_pos (hat x rfl)
  | succ n ih =>
    cases l with
    | nil => rfl
    | cons x xs =>
      rw [List.find?_cons_of_neg (by rw [hbefore 0 x (Nat.succ_pos n) rfl]; exact nofun)]
      exact ih (fun j y hj hy => hbefore (j + 1) y (Nat.succ_lt_succ hj) hy) hat

end

/-- Ranks less than a line apart are in different columns. -/
theorem add_mod_ne {i m columns : Nat} (hpos : 0 < m) (hlt : m < columns) :
    (i + m) % columns ≠ i % columns := by
  intro h
  have hzero := Nat.sub_mod_eq_zero_of_mod_eq h
  rw [Nat.add_sub_cancel_left, Nat.mod_eq_of_lt hlt] at hzero
  omega

/-! ## What a layout says of columns -/

namespace Layout

variable {K : Type u} {layout : Layout K} {ks : List K} {columns : Nat} {a b c k : K}
variable {source other : Rect}

/-- Whether a step along the column of `source` ends at `k`: in the same column and another line, or
not measured. -/
def endsAt (layout : Layout K) (source : Rect) (k : K) : Bool :=
  (layout.rect? k).all fun rect => rect.x0 == source.x0 && rect.y0 != source.y0

/-- Every key is measured, and no two start at the same point. -/
structure Separates (layout : Layout K) (ks : List K) : Prop where
  measured : ∀ k ∈ ks, (layout.rect? k).isSome
  apart : ∀ a ∈ ks, ∀ b ∈ ks, ∀ r s, layout.rect? a = some r → layout.rect? b = some s →
    r.x0 == s.x0 → r.y0 == s.y0 → a = b

/-- The keys fill lines of `columns` each: they start at the same column exactly if their ranks agree
modulo `columns`, and at the same line exactly if these agree divided by it. -/
structure Tabulates (layout : Layout K) (ks : List K) (columns : Nat) : Prop where
  pos : 0 < columns
  measured : ∀ k ∈ ks, (layout.rect? k).isSome
  column : ∀ i j r s, ks[i]?.bind layout.rect? = some r → ks[j]?.bind layout.rect? = some s →
    (r.x0 == s.x0 ↔ i % columns = j % columns)
  line : ∀ i j r s, ks[i]?.bind layout.rect? = some r → ks[j]?.bind layout.rect? = some s →
    (r.y0 == s.y0 ↔ i / columns = j / columns)

theorem endsAt_iff (hk : layout.rect? k = some other) :
    layout.endsAt source k = true ↔ other.x0 == source.x0 ∧ ¬ other.y0 == source.y0 := by
  rw [endsAt, hk, Option.all_some, Bool.and_eq_true, bne, Bool.not_eq_true', Bool.not_eq_true]

/-- Along a column there is a way back. -/
theorem endsAt_comm (ha : layout.rect? a = some source) (hb : layout.rect? b = some other)
    (h : layout.endsAt source b = true) : layout.endsAt other a = true := by
  obtain ⟨hcolumn, hline⟩ := (endsAt_iff hb).1 h
  exact (endsAt_iff ha).2 ⟨BEq.symm hcolumn, fun hsame => hline (BEq.symm hsame)⟩

/-- What is in the column of `b` is in that of `a`, if `b` is. -/
theorem Separates.endsAt_trans (hlayout : layout.Separates ks) (ha : a ∈ ks) (hc : c ∈ ks)
    (hne : c ≠ a) (hsource : layout.rect? a = some source) (hother : layout.rect? b = some other)
    (hab : layout.endsAt source b = true) (hbc : layout.endsAt other c = true) :
    layout.endsAt source c = true := by
  obtain ⟨rect, hrect⟩ := Option.isSome_iff_exists.1 (hlayout.measured c hc)
  have hcolumn : rect.x0 == source.x0 :=
    BEq.trans ((endsAt_iff hrect).1 hbc).1 ((endsAt_iff hother).1 hab).1
  exact (endsAt_iff hrect).2
    ⟨hcolumn, fun hline => hne (hlayout.apart c hc a ha _ _ hrect hsource hcolumn hline)⟩

/-- Where the keys fill lines, they are separated. -/
theorem Tabulates.separates (h : layout.Tabulates ks columns) : layout.Separates ks where
  measured := h.measured
  apart a ha b hb r s hr hs hcolumn hline := by
    obtain ⟨i, hi⟩ := List.mem_iff_getElem?.1 ha
    obtain ⟨j, hj⟩ := List.mem_iff_getElem?.1 hb
    have hplaces : ks[i]?.bind layout.rect? = some r ∧ ks[j]?.bind layout.rect? = some s := by
      rw [hi, hj]
      exact ⟨hr, hs⟩
    rw [h.column i j r s hplaces.1 hplaces.2] at hcolumn
    rw [h.line i j r s hplaces.1 hplaces.2] at hline
    have hsame : i = j := by
      rw [← Nat.div_add_mod i columns, ← Nat.div_add_mod j columns, hline, hcolumn]
    rw [hsame, hj] at hi
    exact (Option.some.inj hi).symm

/-- Along the column of `a` there is a step to `b` over the keys in between. -/
def Steps (layout : Layout K) (a b : K) (between : List K) : Prop :=
  ∃ source, layout.rect? a = some source ∧ layout.endsAt source b = true ∧
    ∀ c ∈ between, !layout.endsAt source c

/-- Where keys are separated, a step over others can be taken back. -/
theorem Separates.steps_comm {between : List K} (hlayout : layout.Separates ks) (ha : a ∈ ks)
    (hb : b ∈ ks) (hbetween : ∀ c ∈ between, c ∈ ks ∧ c ≠ a) (h : layout.Steps a b between) :
    layout.Steps b a between := by
  obtain ⟨source, hsource, hends, hover⟩ := h
  obtain ⟨other, hother⟩ := Option.isSome_iff_exists.1 (hlayout.measured b hb)
  refine ⟨other, hother, endsAt_comm hsource hother hends, fun c hc => ?_⟩
  -- what would stop the way back would have stopped the step
  have hstop := hover c hc
  rw [Bool.not_eq_true', ← Bool.not_eq_true] at hstop ⊢
  exact fun hback => hstop
    (hlayout.endsAt_trans ha (hbetween c hc).1 (hbetween c hc).2 hsource hother hends hback)

end Layout

namespace Navigator

variable {K : Type u} {T : Type v} [DecidableEq K] [Hashable K]
variable {v : Navigator K T} {layout : Layout K} {before after xs ys : List K} {a b k : K}
variable {forward : Bool} {source : Rect} {columns i : Nat} {found : Option K}

/-! ## Steps and walks -/

theorem upDown?_of_not_wraps (hwraps : v.config.wraps = false)
    (hk : v.collection.contains k = true) : v.upDown? forward k = v.vertical? forward k := by
  rw [upDown?, if_pos hk, wrap?_of_not_wraps hwraps, Option.or_none]

/-- From a row, steps down go through the stops after it. -/
theorem trail_step?_true (h : v.collection.keys = before ++ k :: after) :
    Trail (v.step? true) (v.step? true k) (after.filter v.stopsAt) := by
  rw [step?_true h]
  refine Trail.of_append (fun xs a ys hsplit => ?_) (List.nil_append _).symm
  obtain ⟨between, rest, rfl, -, -, hys⟩ := exists_of_filter_eq_append_cons hsplit
  have hrow : v.collection.keys = (before ++ k :: between) ++ a :: rest := by
    rw [h, List.append_assoc, List.cons_append]
  rw [step?_true hrow, hys]

/-- From a row, steps up go through the stops before it, the last one first. -/
theorem trail_step?_false (h : v.collection.keys = before ++ k :: after) :
    Trail (v.step? false) (v.step? false k) (before.filter v.stopsAt).reverse := by
  rw [step?_false h, ← List.head?_reverse]
  refine Trail.of_append (fun xs a ys hsplit => ?_) (List.nil_append _).symm
  rw [List.reverse_eq_iff, List.reverse_append, List.reverse_cons, List.append_assoc] at hsplit
  obtain ⟨front, between, rfl, hys, -, -⟩ := exists_of_filter_eq_append_cons hsplit
  have hrow : v.collection.keys = front ++ a :: (between ++ k :: after) := by
    rw [h, List.append_assoc, List.cons_append]
  rw [step?_false hrow, hys, List.getLast?_reverse]

section Grid

variable (hgrid : v.config.arrangement = .grid) (hvertical : v.config.orientation = .vertical)
variable (hlayout : v.layout = some layout)

include hgrid hvertical hlayout

theorem vertical?_of_grid : v.vertical? forward k =
    (layout.rect? k).bind fun source => v.seek? (fun n => layout.endsAt source n.key) forward k := by
  rw [vertical?, hgrid, hvertical]
  change v.stepInLayout? _ _ _ = _
  rw [stepInLayout?, hlayout]
  rfl

/-- From a measured row the first stop at which its column can end, down and up. -/
theorem vertical?_of_keys_eq (hk : layout.rect? k = some source)
    (h : v.collection.keys = before ++ k :: after) :
    v.vertical? true k = (after.filter v.stopsAt).find? (layout.endsAt source) ∧
      v.vertical? false k =
        (before.filter v.stopsAt).reverse.find? (layout.endsAt source) := by
  rw [vertical?_of_grid hgrid hvertical hlayout, vertical?_of_grid hgrid hvertical hlayout, hk,
    Option.bind_some, Option.bind_some, seek?_true _ h, seek?_false _ h]
  exact ⟨rfl, rfl⟩

/-- From a measured stop, among the stops. -/
theorem vertical?_of_stops_eq (ha : layout.rect? a = some source) (h : v.stops = xs ++ a :: ys) :
    v.vertical? true a = ys.find? (layout.endsAt source) ∧
      v.vertical? false a = xs.reverse.find? (layout.endsAt source) := by
  obtain ⟨before, after, hsplit, hxs, -, hys⟩ := exists_of_filter_eq_append_cons h
  rw [← hxs, ← hys]
  exact vertical?_of_keys_eq hgrid hvertical hlayout ha hsplit

/-- Walking from stop to stop until the column can end finds the same. -/
theorem walk_step?_iff (hk : layout.rect? k = some source)
    (h : v.collection.keys = before ++ k :: after) :
    Walk (v.step? forward) (layout.endsAt source) (v.step? forward k) found ↔
      found = v.vertical? forward k := by
  obtain ⟨hbelow, habove⟩ := vertical?_of_keys_eq hgrid hvertical hlayout hk h
  cases forward with
  | true => rw [(trail_step?_true h).walk_iff, hbelow]
  | false => rw [(trail_step?_false h).walk_iff, habove]

/-! ## There and back -/

theorem vertical?_of_not_measured (hk : layout.rect? k = none) : v.vertical? forward k = none := by
  rw [vertical?_of_grid hgrid hvertical hlayout, hk, Option.bind_none]

theorem measured_of_vertical? (h : v.vertical? forward a = some b) :
    ∃ source, layout.rect? a = some source := by
  rw [vertical?_of_grid hgrid hvertical hlayout] at h
  obtain ⟨source, hsource, -⟩ := Option.bind_eq_some_iff.1 h
  exact ⟨source, hsource⟩

theorem vertical?_true_eq_some_iff (ha : a ∈ v.stops) : v.vertical? true a = some b ↔
    ∃ xs between ys, v.stops = xs ++ a :: (between ++ b :: ys) ∧ layout.Steps a b between := by
  constructor
  · intro hstep
    obtain ⟨source, hsource⟩ := measured_of_vertical? hgrid hvertical hlayout hstep
    obtain ⟨xs, ys, hsplit⟩ := List.append_of_mem ha
    rw [(vertical?_of_stops_eq hgrid hvertical hlayout hsource hsplit).1,
      List.find?_eq_some_iff_append] at hstep
    obtain ⟨hends, between, ys, rfl, hover⟩ := hstep
    exact ⟨xs, between, ys, hsplit, source, hsource, hends, hover⟩
  · rintro ⟨xs, between, ys, hsplit, source, hsource, hends, hover⟩
    rw [(vertical?_of_stops_eq hgrid hvertical hlayout hsource hsplit).1,
      List.find?_eq_some_iff_append]
    exact ⟨hends, between, ys, rfl, hover⟩

theorem vertical?_false_eq_some_iff (hb : b ∈ v.stops) : v.vertical? false b = some a ↔
    ∃ xs between ys, v.stops = xs ++ a :: (between ++ b :: ys) ∧ layout.Steps b a between := by
  constructor
  · intro hstep
    obtain ⟨source, hsource⟩ := measured_of_vertical? hgrid hvertical hlayout hstep
    obtain ⟨xs, ys, hsplit⟩ := List.append_of_mem hb
    rw [(vertical?_of_stops_eq hgrid hvertical hlayout hsource hsplit).2,
      find?_reverse_eq_some_iff_between] at hstep
    obtain ⟨hends, xs, between, rfl, hover⟩ := hstep
    rw [List.append_assoc, List.cons_append] at hsplit
    exact ⟨xs, between, ys, hsplit, source, hsource, hends, hover⟩
  · rintro ⟨xs, between, ys, hsplit, source, hsource, hends, hover⟩
    rw [← List.cons_append, ← List.append_assoc] at hsplit
    rw [(vertical?_of_stops_eq hgrid hvertical hlayout hsource hsplit).2,
      find?_reverse_eq_some_iff_between]
    exact ⟨hends, xs, between, rfl, hover⟩

/-- **There and back.** On separated stops a step up leads back from where a step down has led, and
the other way round. -/
theorem vertical?_true_eq_some_iff_false (hseparates : layout.Separates v.stops) (ha : a ∈ v.stops)
    (hb : b ∈ v.stops) : v.vertical? true a = some b ↔ v.vertical? false b = some a := by
  rw [vertical?_true_eq_some_iff hgrid hvertical hlayout ha,
    vertical?_false_eq_some_iff hgrid hvertical hlayout hb]
  refine exists_congr fun xs => exists_congr fun between => exists_congr fun ys =>
    and_congr_right fun hsplit => ?_
  have hbetween : ∀ c ∈ between, c ∈ v.stops ∧ c ≠ a ∧ c ≠ b := by
    intro c hc
    have hnodup := v.nodup_stops
    rw [hsplit] at hnodup ⊢
    simp only [List.nodup_append, List.nodup_cons, List.mem_append, List.mem_cons] at hnodup ⊢
    grind
  exact ⟨hseparates.steps_comm ha hb fun c hc => ⟨(hbetween c hc).1, (hbetween c hc).2.1⟩,
    hseparates.steps_comm hb ha fun c hc => ⟨(hbetween c hc).1, (hbetween c hc).2.2⟩⟩

/-! ## Tables -/

/-- **Lines of one length.** In a table a step down goes a line on. -/
theorem vertical?_of_tabulates (htable : layout.Tabulates v.stops columns)
    (hk : v.stops[i]? = some k) : v.vertical? true k = v.stops[i + columns]? := by
  obtain ⟨xs, ys, hsplit, rfl⟩ := exists_append_cons_of_getElem? hk
  obtain ⟨source, hsource⟩ :=
    Option.isSome_iff_exists.1 (htable.measured k (List.mem_of_getElem? hk))
  have hrank : ∀ j, v.stops[xs.length + (j + 1)]? = ys[j]? := fun j => by
    rw [hsplit, List.getElem?_append_right (Nat.le_add_right ..), Nat.add_sub_cancel_left,
      List.getElem?_cons_succ]
  have hends : ∀ j t, ys[j]? = some t → (layout.endsAt source t = true ↔
      (xs.length + (j + 1)) % columns = xs.length % columns ∧
        (xs.length + (j + 1)) / columns ≠ xs.length / columns) := by
    intro j t ht
    rw [← hrank j] at ht
    obtain ⟨other, hother⟩ :=
      Option.isSome_iff_exists.1 (htable.measured t (List.mem_of_getElem? ht))
    have hplaces : v.stops[xs.length + (j + 1)]?.bind layout.rect? = some other ∧
        v.stops[xs.length]?.bind layout.rect? = some source := by
      rw [ht, hk]
      exact ⟨hother, hsource⟩
    rw [Layout.endsAt_iff hother, htable.column _ _ _ _ hplaces.1 hplaces.2,
      htable.line _ _ _ _ hplaces.1 hplaces.2]
  obtain ⟨m, rfl⟩ := Nat.exists_eq_succ_of_ne_zero (Nat.ne_of_gt htable.pos)
  rw [(vertical?_of_stops_eq hgrid hvertical hlayout hsource hsplit).1, hrank m]
  refine find?_eq_getElem? (fun j t hj ht => ?_) (fun t ht => ?_)
  · rw [← Bool.not_eq_true, hends j t ht]
    exact fun hsame => add_mod_ne (Nat.succ_pos j) (Nat.succ_lt_succ hj) hsame.1
  · rw [hends m t ht, Nat.add_mod_right, Nat.add_div_right _ htable.pos]
    exact ⟨rfl, Nat.succ_ne_self _⟩

end Grid

/-- **Steps in a grid.** From a measured row a step down goes to the first of the stops after it, and a
step up to the last of those before it, that is in the same column and another line or not measured;
walking from stop to stop until there is one finds the same. From a row that is not measured there is
no step, nor from an unknown key. If all stops are measured and no two start at the same point, the two
undo each other on the stops. If the stops fill lines of one length, a step down goes that many stops
on, or nowhere if there are not as many; the stops are all the items, if every item can take the
focus. -/
theorem grid_follows_columns (v : Navigator K T) (layout : Layout K)
    (hgrid : v.config.arrangement = .grid) (hvertical : v.config.orientation = .vertical)
    (hwraps : v.config.wraps = false) (hlayout : v.layout = some layout) :
    (∀ before k after source, v.collection.keys = before ++ k :: after →
      layout.rect? k = some source →
      v.below? k = (after.filter v.stopsAt).find? (layout.endsAt source) ∧
      v.above? k = (before.filter v.stopsAt).reverse.find? (layout.endsAt source) ∧
      (∀ found, Walk (v.step? true) (layout.endsAt source) (v.step? true k) found ↔
        found = v.below? k) ∧
      (∀ found, Walk (v.step? false) (layout.endsAt source) (v.step? false k) found ↔
        found = v.above? k)) ∧
    (∀ k, layout.rect? k = none ∨ v.collection.contains k = false →
      v.below? k = none ∧ v.above? k = none) ∧
    (layout.Separates v.stops → ∀ a ∈ v.stops, ∀ b ∈ v.stops,
      (v.below? a = some b ↔ v.above? b = some a)) ∧
    (∀ columns, layout.Tabulates v.stops columns → ∀ i k, v.stops[i]? = some k →
      v.below? k = v.stops[i + columns]?) ∧
    ((∀ n ∈ v.collection.toList, n.isItem = true → v.isFocusable n = true) →
      v.stops = (v.collection.toList.filter (·.isItem)).map (·.key)) := by
  have hbelow : ∀ k, v.collection.contains k = true → v.below? k = v.vertical? true k :=
    fun k hk => upDown?_of_not_wraps hwraps hk
  have habove : ∀ k, v.collection.contains k = true → v.above? k = v.vertical? false k :=
    fun k hk => upDown?_of_not_wraps hwraps hk
  refine ⟨fun before k after source hsplit hk => ?_, fun k hk => ?_, fun hseparates a ha b hb => ?_,
    fun columns htable i k hk => ?_, fun hitems => ?_⟩
  · have hknown := Collection.contains_of_keys_eq hsplit
    obtain ⟨hdown, hup⟩ := vertical?_of_keys_eq hgrid hvertical hlayout hk hsplit
    rw [hbelow k hknown, habove k hknown]
    exact ⟨hdown, hup, fun _ => walk_step?_iff hgrid hvertical hlayout hk hsplit,
      fun _ => walk_step?_iff hgrid hvertical hlayout hk hsplit⟩
  · cases hknown : v.collection.contains k with
    | false => exact ⟨upDown?_of_unknown hknown, upDown?_of_unknown hknown⟩
    | true =>
      have hnone := hk.resolve_right (by rw [hknown]; exact nofun)
      rw [hbelow k hknown, habove k hknown]
      exact ⟨vertical?_of_not_measured hgrid hvertical hlayout hnone,
        vertical?_of_not_measured hgrid hvertical hlayout hnone⟩
  · rw [hbelow a (contains_of_mem_stops ha), habove b (contains_of_mem_stops hb)]
    exact vertical?_true_eq_some_iff_false hgrid hvertical hlayout hseparates ha hb
  · rw [hbelow k (contains_of_mem_stops (List.mem_of_getElem? hk))]
    exact vertical?_of_tabulates hgrid hvertical hlayout htable hk
  · rw [stops_eq_map]
    refine congrArg _ (List.filter_congr fun n hn => ?_)
    rw [Bool.eq_iff_iff]
    exact ⟨fun hfocusable => (Bool.and_eq_true_iff.1 hfocusable).1, hitems n hn⟩

/-- The fruit of the orchard in lines of two. -/
def linesOfTwo : Layout Nat := .cells 2 3 ⟨10, 10⟩ ⟨20, 20⟩ fun k => [1, 3, 5].idxOf? k

theorem tabulates_linesOfTwo : linesOfTwo.Tabulates [1, 3, 5] 2 := by
  have hcheck : ∀ i j : Fin 3, ([1, 3, 5][i]?.bind linesOfTwo.rect?).any (fun r =>
      ([1, 3, 5][j]?.bind linesOfTwo.rect?).any fun s =>
        (r.x0 == s.x0) == decide (i.val % 2 = j.val % 2) &&
          (r.y0 == s.y0) == decide (i.val / 2 = j.val / 2)) = true := by
    decide
  have hrank : ∀ i r, [1, 3, 5][i]?.bind linesOfTwo.rect? = some r → i < 3 := by
    intro i r hi
    obtain ⟨k, hk, -⟩ := Option.bind_eq_some_iff.1 hi
    exact (List.getElem?_eq_some_iff.1 hk).1
  have hplaces : ∀ i j r s, [1, 3, 5][i]?.bind linesOfTwo.rect? = some r →
      [1, 3, 5][j]?.bind linesOfTwo.rect? = some s →
      (r.x0 == s.x0 ↔ i % 2 = j % 2) ∧ (r.y0 == s.y0 ↔ i / 2 = j / 2) := by
    intro i j r s hi hj
    have hsame := hcheck ⟨i, hrank i r hi⟩ ⟨j, hrank j s hj⟩
    change ([1, 3, 5][i]?.bind linesOfTwo.rect?).any (fun r =>
      ([1, 3, 5][j]?.bind linesOfTwo.rect?).any _) = true at hsame
    rw [hi, Option.any_some, hj, Option.any_some, Bool.and_eq_true, beq_iff_eq, beq_iff_eq] at hsame
    rw [hsame.1, hsame.2, decide_eq_true_iff, decide_eq_true_iff]
    exact ⟨Iff.rfl, Iff.rfl⟩
  exact ⟨by decide, by decide, fun i j r s hi hj => (hplaces i j r s hi hj).1,
    fun i j r s hi hj => (hplaces i j r s hi hj).2⟩

/-- From the pear a line down to the apple and back; nowhere from the prune, below which the line is not
full, and nowhere from the section, which is not measured. -/
theorem grid_follows_columns_orchard :
    ∃ c, Collection.ofForest orchard = .ok c ∧
      let v : Navigator Nat Unit := { new c { arrangement := .grid } with layout := some linesOfTwo }
      v.config.arrangement = .grid ∧ v.config.orientation = .vertical ∧ v.config.wraps = false ∧
        v.layout = some linesOfTwo ∧ v.collection.keys = [1, 2] ++ 3 :: [4, 5] ∧
        (∃ source, linesOfTwo.rect? 3 = some source) ∧ v.below? 3 = none ∧
        linesOfTwo.rect? 2 = none ∧ v.above? 2 = none ∧ v.stops = [1, 3, 5] ∧
        linesOfTwo.Separates v.stops ∧ v.above? 5 = some 1 ∧
        linesOfTwo.Tabulates v.stops 2 ∧ v.below? 1 = some 5 ∧ v.below? 5 = none := by
  obtain ⟨c, hc⟩ := Collection.exists_ofForest_ok_iff.2 (show orchard.keys.Nodup by decide)
  let v : Navigator Nat Unit := { new c { arrangement := .grid } with layout := some linesOfTwo }
  have hkeys : v.collection.keys = [1, 2] ++ 3 :: [4, 5] := Collection.keys_ofForest hc
  have hstops : v.stops = [1, 3, 5] := stops_orchard hc { arrangement := .grid } _
  have htable : linesOfTwo.Tabulates v.stops 2 := by
    rw [hstops]
    exact tabulates_linesOfTwo
  have hprune : ∃ source, linesOfTwo.rect? 3 = some source := ⟨_, rfl⟩
  have hrow : linesOfTwo.rect? 2 = none := rfl
  obtain ⟨hcolumn, hnowhere, hback, hline, -⟩ :=
    grid_follows_columns v linesOfTwo rfl rfl rfl rfl
  have hdown : v.below? 1 = some 5 := by
    rw [hline 2 htable 0 1 (by rw [hstops]; rfl), hstops]
    rfl
  have hend : v.below? 5 = none := by
    rw [hline 2 htable 2 5 (by rw [hstops]; rfl), hstops]
    rfl
  have hmem : 1 ∈ v.stops ∧ 5 ∈ v.stops := by
    rw [hstops]
    decide
  have hup : v.above? 5 = some 1 := (hback htable.separates 1 hmem.1 5 hmem.2).1 hdown
  have hshort : v.below? 3 = none := by
    obtain ⟨source, hsource⟩ := hprune
    rw [(hcolumn _ _ _ _ hkeys hsource).1, funext v.stopsAt_eq_decide, hstops]
    cases hsource
    decide
  exact ⟨c, hc, rfl, rfl, rfl, rfl, hkeys, hprune, hshort, hrow, (hnowhere 2 (Or.inl hrow)).2, hstops,
    htable.separates, hup, htable, hdown, hend⟩

end Navigator

end Listbox
