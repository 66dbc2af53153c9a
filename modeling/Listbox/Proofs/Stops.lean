import Listbox.Proofs.Destination
import Listbox.Proofs.ReadingOrder
import Listbox.Proofs.Trails
import Mathlib.Data.List.Cycle
import Mathlib.Data.List.Find

set_option autoImplicit false

/-! # Steps between stops

The stops of a navigator are its focusable keys in reading order. In a stack a step down goes to the
next stop and a step up to the one before, whatever row it starts from; where there is none, it comes
back at the other end or leads nowhere. So on the stops the two undo each other, and without coming
back the steps down from the first stop visit all of them (`steps_follow_stops`).

A step is found by walking from neighbour to neighbour until there is a stop. `Walk` is that loop and
nothing else, so it has no value where the loop does not end. -/

universe u v

namespace Listbox

/-! ## Walking until a stop -/

/-- Going on by `step` until `stops` holds or there is nothing, a walk ends with this. -/
inductive Walk {α : Type u} (step : α → Option α) (stops : α → Bool) :
    Option α → Option α → Prop where
  | nothing : Walk step stops none none
  | stop {a : α} (h : stops a = true) : Walk step stops (some a) (some a)
  | go {a : α} {found : Option α} (h : stops a = false) (rest : Walk step stops (step a) found) :
    Walk step stops (some a) found

section

variable {α : Type u} {step : α → Option α} {stops : α → Bool} {start found found' : Option α}
variable {as l xs ys : List α} {a : α}

theorem Walk.unique (h : Walk step stops start found) (h' : Walk step stops start found') :
    found = found' := by
  induction h with
  | nothing =>
    cases h'
    rfl
  | stop h =>
    cases h' with
    | stop => rfl
    | go hgo => rw [h] at hgo; cases hgo
  | go h _ ih =>
    cases h' with
    | stop hstop => rw [h] at hstop; cases hstop
    | go _ rest => exact ih rest

/-- A walk ends with the first stop on its trail. -/
theorem Trail.walk_iff (h : Trail step start as) :
    Walk step stops start found ↔ found = as.find? stops := by
  have hwalk : Walk step stops start (as.find? stops) := by
    induction h with
    | stop => exact .nothing
    | @go a as _ ih =>
      rw [List.find?_cons]
      cases hstop : stops a with
      | true => exact .stop hstop
      | false => exact .go hstop ih
  constructor
  · intro hfound
    exact hfound.unique hwalk
  · rintro rfl
    exact hwalk

/-- If every step leads from a member of a list to the next, the steps from anywhere in it visit the
rest. -/
theorem Trail.of_append (h : ∀ xs a ys, l = xs ++ a :: ys → step a = ys.head?) (hl : l = xs ++ ys) :
    Trail step ys.head? ys := by
  induction ys generalizing xs with
  | nil => exact .stop
  | cons a ys ih =>
    refine .go ?_
    rw [h xs a ys hl]
    exact ih (hl.trans (List.append_cons xs a ys))

/-- What a filter leaves falls apart where the list does. -/
theorem exists_of_filter_eq_append_cons (h : l.filter stops = xs ++ a :: ys) :
    ∃ before after, l = before ++ a :: after ∧ before.filter stops = xs ∧ stops a = true ∧
      after.filter stops = ys := by
  obtain ⟨before, rest, rfl, hxs, hrest⟩ := List.filter_eq_append_iff.1 h
  obtain ⟨between, after, rfl, hnone, ha, hys⟩ := List.filter_eq_cons_iff.1 hrest
  refine ⟨before ++ between, after, (List.append_assoc ..).symm, ?_, ha, hys⟩
  rw [List.filter_append, hxs, List.filter_eq_nil_iff.2 hnone, List.append_nil]

/-- The cyclic successor is the next member, or else the first. -/
theorem some_next_eq [DecidableEq α] (hl : l.Nodup) (h : l = xs ++ a :: ys) (ha : a ∈ l) :
    some (l.next a ha) = ys.head?.or l.head? := by
  subst h
  have hi : xs.length < (xs ++ a :: ys).length := by simp
  have hnext := List.next_getElem _ hl xs.length hi
  simp only [List.getElem_append_right (Nat.le_refl _), Nat.sub_self, List.getElem_cons_zero] at hnext
  rw [hnext, ← List.getElem?_eq_getElem]
  cases ys with
  | nil => simp [List.head?_eq_getElem?]
  | cons b ys => simp [Nat.mod_eq_of_lt]

/-- The cyclic predecessor is the member before, or else the last. -/
theorem some_prev_eq [DecidableEq α] (hl : l.Nodup) (h : l = xs ++ a :: ys) (ha : a ∈ l) :
    some (l.prev a ha) = xs.getLast?.or l.getLast? := by
  have hback : l.reverse = ys.reverse ++ a :: xs.reverse := by
    rw [h, List.reverse_append, List.reverse_cons, List.append_assoc, List.singleton_append]
  rw [← List.next_reverse_eq_prev l hl a ha, some_next_eq (List.nodup_reverse.2 hl) hback,
    List.head?_reverse, List.head?_reverse]

end

variable {K : Type u} {T : Type v} [DecidableEq K] [Hashable K]

/-! ## The reading order around a key -/

namespace Collection

variable {c : Collection K T} {before after : List K} {k : K} {p q : Node K T → Bool} {i : Nat}

theorem any_get?_key {n : Node K T} (hn : n ∈ c.toList) : (c.get? n.key).any p = p n := by
  rw [get?_eq_some_iff.2 ⟨hn, rfl⟩, Option.any_some]

theorem any_get?_and_key (c : Collection K T) (q : K → Bool) (k : K) :
    (c.get? k).any (fun n => p n && q n.key) = ((c.get? k).any p && q k) := by
  cases h : c.get? k with
  | none => rfl
  | some n =>
    obtain ⟨-, rfl⟩ := get?_eq_some_iff.1 h
    rfl

theorem filter_any_get?_keys (c : Collection K T) (p : Node K T → Bool) :
    (c.keys.filter fun k => (c.get? k).any p) = (c.toList.filter p).map (·.key) := by
  rw [keys, List.filter_map]
  exact congrArg _ (List.filter_congr fun n hn => any_get?_key hn)

/-- Searching the nodes forward is searching the keys from there on. -/
theorem map_key_findFrom? (c : Collection K T) (p : Node K T → Bool) (i : Nat) :
    (c.findFrom? p i).map (·.key) = (c.keys.drop i).find? fun k => (c.get? k).any p := by
  rw [findFrom?_eq_find?, keys, ← List.map_drop, List.find?_map]
  exact congrArg _ (List.find?_congr fun n hn => (any_get?_key (List.mem_of_mem_drop hn)).symm)

/-- Searching the nodes backward is searching the keys before there, the last one first. -/
theorem map_key_findBefore? (c : Collection K T) (p : Node K T → Bool) (i : Nat) :
    (c.findBefore? p i).map (·.key) = (c.keys.take i).reverse.find? fun k => (c.get? k).any p := by
  rw [findBefore?_eq_find?, keys, ← List.map_take, ← List.map_reverse, List.find?_map]
  refine congrArg _ (List.find?_congr fun n hn => (any_get?_key ?_).symm)
  exact List.mem_of_mem_take (List.mem_reverse.1 hn)

theorem exists_keys_eq (h : c.contains k = true) : ∃ before after, c.keys = before ++ k :: after :=
  List.append_of_mem (contains_iff_mem_keys.1 h)

theorem contains_of_keys_eq (h : c.keys = before ++ k :: after) : c.contains k = true := by
  rw [contains_iff_mem_keys, h]
  exact List.mem_append_right before List.mem_cons_self

theorem keys_getElem?_of_keys_eq (h : c.keys = before ++ k :: after) :
    c.keys[before.length]? = some k := by
  simp [h]

theorem keyAfter?_of_keys_eq (h : c.keys = before ++ k :: after) : c.keyAfter? k = after.head? := by
  rw [keyAfter?_of_getElem? (keys_getElem?_of_keys_eq h), h,
    List.getElem?_append_right (Nat.le_add_right ..), Nat.add_sub_cancel_left, List.getElem?_cons_succ,
    List.head?_eq_getElem?]

theorem keyBefore?_of_keys_eq (h : c.keys = before ++ k :: after) :
    c.keyBefore? k = before.getLast? := by
  rw [keyBefore?_of_getElem? (keys_getElem?_of_keys_eq h)]
  rcases List.eq_nil_or_concat before with rfl | ⟨before, b, rfl⟩
  · rfl
  · simp [keyLeftOf?, h]

/-- From a key the neighbours forward are what comes after it. -/
theorem trail_keyAfter? (h : c.keys = before ++ k :: after) :
    Trail c.keyAfter? (c.keyAfter? k) after := by
  rw [keyAfter?_of_keys_eq h]
  exact Trail.of_append (fun xs a ys => keyAfter?_of_keys_eq) (h.trans (List.append_cons ..))

/-- From a key the neighbours backward are what comes before it, the last one first. -/
theorem trail_keyBefore? (h : c.keys = before ++ k :: after) :
    Trail c.keyBefore? (c.keyBefore? k) before.reverse := by
  -- backward through the keys is forward through them reversed
  have hback : c.keys.reverse = (after.reverse ++ [k]) ++ before.reverse := by simp [h]
  rw [keyBefore?_of_keys_eq h, ← List.head?_reverse]
  refine Trail.of_append (fun xs a ys hsplit => ?_) hback
  rw [List.reverse_eq_iff, List.reverse_append, List.reverse_cons, List.append_assoc] at hsplit
  rw [keyBefore?_of_keys_eq hsplit, List.getLast?_reverse]

end Collection

/-! ## One step -/

namespace Navigator

variable {v : Navigator K T} {before after xs ys : List K} {k a b : K} {forward : Bool}

/-- Whether `k` is the key of a focusable node. -/
def stopsAt (v : Navigator K T) (k : K) : Bool := (v.collection.get? k).any v.isFocusable

/-- The focusable keys in reading order. -/
def stops (v : Navigator K T) : List K := v.collection.keys.filter v.stopsAt

theorem nodup_stops (v : Navigator K T) : v.stops.Nodup := v.collection.nodup_keys.filter _

theorem stopsAt_iff : v.stopsAt k = true ↔ v.Offers k := by
  simp only [stopsAt, Option.any_eq_true, Collection.get?_eq_some_iff, and_assoc, Offers]

theorem stops_eq_map (v : Navigator K T) :
    v.stops = (v.collection.toList.filter v.isFocusable).map (·.key) :=
  v.collection.filter_any_get?_keys v.isFocusable

theorem mem_stops_iff : k ∈ v.stops ↔ v.Offers k := by
  rw [stops, List.mem_filter, stopsAt_iff, and_iff_right_iff_imp]
  rintro ⟨n, hn, rfl, -⟩
  exact List.mem_map_of_mem hn

theorem stopsAt_eq_decide (v : Navigator K T) (k : K) : v.stopsAt k = decide (k ∈ v.stops) := by
  rw [Bool.eq_iff_iff, decide_eq_true_iff, stopsAt_iff, mem_stops_iff]

theorem first?_eq_head?_stops (v : Navigator K T) : v.first? = v.stops.head? := by
  rw [first?, Collection.map_key_findFrom?, List.drop_zero, stops, List.head?_filter]
  rfl

theorem last?_eq_getLast?_stops (v : Navigator K T) : v.last? = v.stops.getLast? := by
  rw [last?, Collection.map_key_findBefore?, stops, List.getLast?_filter,
    List.take_of_length_le (Nat.le_of_eq v.collection.length_keys)]
  rfl

/-- Seeking forward finds the first of the stops after `k` that satisfies a condition on keys. -/
theorem seek?_true (p : K → Bool) (h : v.collection.keys = before ++ k :: after) :
    v.seek? (fun n => p n.key) true k = (after.filter v.stopsAt).find? p := by
  have hafter : v.collection.keys.drop (before.length + 1) = after := by
    rw [h, ← List.drop_drop, List.drop_left, List.drop_one, List.tail_cons]
  rw [seek?, Collection.position?_eq_some_iff.2 (Collection.keys_getElem?_of_keys_eq h)]
  simp only [Option.bind_some, if_true]
  rw [Collection.map_key_findFrom?, hafter, List.find?_filter]
  simp only [Collection.any_get?_and_key, Bool.decide_and, Bool.decide_eq_true]
  rfl

/-- Seeking backward finds the last of the stops before `k` that satisfies a condition on keys. -/
theorem seek?_false (p : K → Bool) (h : v.collection.keys = before ++ k :: after) :
    v.seek? (fun n => p n.key) false k = (before.filter v.stopsAt).reverse.find? p := by
  have hbefore : v.collection.keys.take before.length = before := by rw [h, List.take_left]
  rw [seek?, Collection.position?_eq_some_iff.2 (Collection.keys_getElem?_of_keys_eq h)]
  simp only [Option.bind_some, Bool.false_eq_true, if_false]
  rw [Collection.map_key_findBefore?, hbefore, ← List.filter_reverse, List.find?_filter]
  simp only [Collection.any_get?_and_key, Bool.decide_and, Bool.decide_eq_true]
  rfl

/-- A step down goes to the first stop after `k`. -/
theorem step?_true (h : v.collection.keys = before ++ k :: after) :
    v.step? true k = (after.filter v.stopsAt).head? := by
  rw [step?, seek?_true (fun _ => true) h]
  cases after.filter v.stopsAt with
  | nil | cons => rfl

/-- A step up goes to the last stop before `k`. -/
theorem step?_false (h : v.collection.keys = before ++ k :: after) :
    v.step? false k = (before.filter v.stopsAt).getLast? := by
  rw [step?, seek?_false (fun _ => true) h, List.getLast?_eq_head?_reverse]
  cases (before.filter v.stopsAt).reverse with
  | nil | cons => rfl

theorem step?_of_unknown (h : v.collection.contains k = false) : v.step? forward k = none := by
  rw [step?, seek?, Collection.position?_eq_none h, Option.bind_none]

/-! ## Walks over neighbours -/

/-- Walking forward from neighbour to neighbour ends, and with what a step down finds. -/
theorem walk_keyAfter?_iff {found : Option K} :
    Walk v.collection.keyAfter? v.stopsAt (v.collection.keyAfter? k) found ↔
      found = v.step? true k := by
  cases hk : v.collection.contains k with
  | false =>
    rw [Collection.keyAfter?_eq, Collection.position?_eq_none hk, step?_of_unknown hk]
    exact Trail.stop.walk_iff
  | true =>
    obtain ⟨before, after, hsplit⟩ := Collection.exists_keys_eq hk
    rw [(Collection.trail_keyAfter? hsplit).walk_iff, step?_true hsplit, List.head?_filter]

theorem walk_keyBefore?_iff {found : Option K} :
    Walk v.collection.keyBefore? v.stopsAt (v.collection.keyBefore? k) found ↔
      found = v.step? false k := by
  cases hk : v.collection.contains k with
  | false =>
    rw [Collection.keyBefore?_eq, Collection.position?_eq_none hk, step?_of_unknown hk]
    exact Trail.stop.walk_iff
  | true =>
    obtain ⟨before, after, hsplit⟩ := Collection.exists_keys_eq hk
    rw [(Collection.trail_keyBefore? hsplit).walk_iff, step?_false hsplit, List.getLast?_filter]

/-! ## A stack -/

theorem wrap?_true (v : Navigator K T) :
    v.wrap? true = if v.config.wraps then v.stops.head? else none := by
  rw [wrap?, if_pos rfl, first?_eq_head?_stops]

theorem wrap?_false (v : Navigator K T) :
    v.wrap? false = if v.config.wraps then v.stops.getLast? else none := by
  rw [wrap?, if_neg Bool.false_ne_true, last?_eq_getLast?_stops]

theorem wrap?_of_not_wraps (h : v.config.wraps = false) : v.wrap? forward = none := by
  rw [wrap?, h, if_neg Bool.false_ne_true]

section Stack

variable (hstack : v.config.arrangement = .stack)

include hstack

theorem vertical?_of_stack : v.vertical? forward k = v.step? forward k := by
  rw [vertical?, hstack]

/-- Down from a row: the first stop after it, or else back to the top. -/
theorem below?_of_keys_eq (h : v.collection.keys = before ++ k :: after) :
    v.below? k = (after.filter v.stopsAt).head?.or (v.wrap? true) := by
  rw [below?, upDown?, if_pos (Collection.contains_of_keys_eq h), vertical?_of_stack hstack,
    step?_true h]

/-- Up from a row: the last stop before it, or else back to the bottom. -/
theorem above?_of_keys_eq (h : v.collection.keys = before ++ k :: after) :
    v.above? k = (before.filter v.stopsAt).getLast?.or (v.wrap? false) := by
  rw [above?, upDown?, if_pos (Collection.contains_of_keys_eq h), vertical?_of_stack hstack,
    step?_false h]

/-- The steps from a stop, among the stops. -/
theorem steps_of_stops_eq (h : v.stops = xs ++ a :: ys) :
    v.below? a = ys.head?.or (v.wrap? true) ∧ v.above? a = xs.getLast?.or (v.wrap? false) := by
  obtain ⟨before, after, hsplit, hxs, -, hys⟩ := exists_of_filter_eq_append_cons h
  rw [below?_of_keys_eq hstack hsplit, above?_of_keys_eq hstack hsplit, hxs, hys]
  exact ⟨rfl, rfl⟩

/-- Where the ends are joined, the stops form a cycle. -/
theorem steps_of_wraps (hwraps : v.config.wraps = true) (ha : a ∈ v.stops) :
    v.below? a = some (v.stops.next a ha) ∧ v.above? a = some (v.stops.prev a ha) := by
  obtain ⟨xs, ys, hsplit⟩ := List.append_of_mem ha
  obtain ⟨hbelow, habove⟩ := steps_of_stops_eq hstack hsplit
  rw [some_next_eq v.nodup_stops hsplit, some_prev_eq v.nodup_stops hsplit, hbelow, habove,
    wrap?_true, wrap?_false, hwraps]
  exact ⟨rfl, rfl⟩

/-- **Undoing.** On the stops a step up leads back from where a step down has led, and the other way
round. -/
theorem below?_eq_some_iff_above? (ha : a ∈ v.stops) (hb : b ∈ v.stops) :
    v.below? a = some b ↔ v.above? b = some a := by
  cases hwraps : v.config.wraps with
  | true =>
    rw [(steps_of_wraps hstack hwraps ha).1, (steps_of_wraps hstack hwraps hb).2,
      Option.some.injEq, Option.some.injEq]
    constructor
    · rintro rfl
      exact List.prev_next _ v.nodup_stops a ha
    · rintro rfl
      exact List.next_prev _ v.nodup_stops b hb
  | false =>
    have hwrap : ∀ forward, v.wrap? forward = none := fun _ => wrap?_of_not_wraps hwraps
    constructor
    · intro hbelow
      obtain ⟨xs, ys, hsplit⟩ := List.append_of_mem ha
      rw [(steps_of_stops_eq hstack hsplit).1, hwrap, Option.or_none] at hbelow
      obtain ⟨rest, rfl⟩ := List.head?_eq_some_iff.1 hbelow
      rw [(steps_of_stops_eq hstack (hsplit.trans (List.append_cons ..))).2, List.getLast?_concat]
      rfl
    · intro habove
      obtain ⟨xs, ys, hsplit⟩ := List.append_of_mem hb
      rw [(steps_of_stops_eq hstack hsplit).2, hwrap, Option.or_none] at habove
      obtain ⟨front, rfl⟩ := List.getLast?_eq_some_iff.1 habove
      rw [(steps_of_stops_eq hstack (hsplit.trans (List.append_assoc ..))).1]
      rfl

/-- Without coming back at the other end, the steps down from the first stop visit all of them. -/
theorem trail_below? (hwraps : v.config.wraps = false) : Trail v.below? v.first? v.stops := by
  rw [first?_eq_head?_stops]
  refine Trail.of_append (fun xs a ys hsplit => ?_) (List.nil_append _).symm
  rw [(steps_of_stops_eq hstack hsplit).1, wrap?_of_not_wraps hwraps, Option.or_none]

/-- Some steps down lead to that many stops after the row, or as far as there are any. -/
theorem advance_true (n : Nat) (h : v.collection.keys = before ++ k :: after) :
    v.advance true n k = ((after.filter v.stopsAt).take n).getLast?.getD k := by
  induction n generalizing before k after with
  | zero => rfl
  | succ n ih =>
    rw [advance, vertical?_of_stack hstack, step?_true h]
    cases hstops : after.filter v.stopsAt with
    | nil => rfl
    | cons a ys =>
      -- the first step is to `a`, and the others go on from where `a` stands
      obtain ⟨between, after, rfl, -, -, hys⟩ :=
        exists_of_filter_eq_append_cons (hstops.trans (List.nil_append _).symm)
      have hsplit : v.collection.keys = (before ++ k :: between) ++ a :: after := by
        rw [h, List.append_assoc, List.cons_append]
      rw [List.take_succ_cons, List.getLast?_cons, Option.getD_some, ← hys]
      exact ih hsplit

/-- Some steps up lead to that many stops before the row, or as far as there are any. -/
theorem advance_false (n : Nat) (h : v.collection.keys = before ++ k :: after) :
    v.advance false n k = ((before.filter v.stopsAt).reverse.take n).getLast?.getD k := by
  induction n generalizing before k after with
  | zero => rfl
  | succ n ih =>
    rw [advance, vertical?_of_stack hstack, step?_false h, ← List.head?_reverse]
    cases hstops : (before.filter v.stopsAt).reverse with
    | nil => rfl
    | cons a xs =>
      rw [List.reverse_eq_cons_iff] at hstops
      obtain ⟨before, between, rfl, hxs, -, -⟩ := exists_of_filter_eq_append_cons hstops
      have hsplit : v.collection.keys = before ++ a :: (between ++ k :: after) := by
        rw [h, List.append_assoc, List.cons_append]
      rw [List.take_succ_cons, List.getLast?_cons, Option.getD_some, ← List.reverse_reverse xs, ← hxs]
      exact ih hsplit

end Stack

/-- **Steps in a stack.** From any row a step down goes to the first stop after it and a step up to
the last stop before it; where there is none, it goes to the first or the last of all stops if the
ends are joined, and otherwise nowhere. From an unknown key there is no step. On the stops the steps
undo each other; if the ends are joined they go around the cycle of stops, and otherwise those down
from the first stop visit all stops in order up to the last. And the loops over neighbours by which a
step is found end from every key, each with what the step finds. -/
theorem steps_follow_stops (v : Navigator K T) (hstack : v.config.arrangement = .stack) :
    (∀ before k after, v.collection.keys = before ++ k :: after →
      v.below? k = (after.filter v.stopsAt).head?.or
        (if v.config.wraps then v.stops.head? else none) ∧
      v.above? k = (before.filter v.stopsAt).getLast?.or
        (if v.config.wraps then v.stops.getLast? else none)) ∧
    (∀ k, v.collection.contains k = false → v.below? k = none ∧ v.above? k = none) ∧
    (∀ a ∈ v.stops, ∀ b ∈ v.stops, v.below? a = some b ↔ v.above? b = some a) ∧
    (v.config.wraps = true → ∀ k (hk : k ∈ v.stops),
      v.below? k = some (v.stops.next k hk) ∧ v.above? k = some (v.stops.prev k hk)) ∧
    (v.config.wraps = false →
      Trail v.below? v.first? v.stops ∧ v.last? = v.stops.getLast?) ∧
    (∀ k found,
      (Walk v.collection.keyAfter? v.stopsAt (v.collection.keyAfter? k) found ↔
        found = v.step? true k) ∧
      (Walk v.collection.keyBefore? v.stopsAt (v.collection.keyBefore? k) found ↔
        found = v.step? false k)) := by
  refine ⟨fun before k after hsplit => ?_, fun k hk => ?_, fun a ha b hb => ?_, fun hwraps k hk => ?_,
    fun hwraps => ?_, fun k found => ⟨walk_keyAfter?_iff, walk_keyBefore?_iff⟩⟩
  · rw [← wrap?_true, ← wrap?_false]
    exact ⟨below?_of_keys_eq hstack hsplit, above?_of_keys_eq hstack hsplit⟩
  · exact ⟨upDown?_of_unknown hk, upDown?_of_unknown hk⟩
  · exact below?_eq_some_iff_above? hstack ha hb
  · exact steps_of_wraps hstack hwraps hk
  · exact ⟨trail_below? hstack hwraps, v.last?_eq_getLast?_stops⟩

/-- Around the ends of the stairs, past a section and a disabled row, and on from that row. -/
theorem steps_follow_stops_stairs :
    ∃ c, Collection.ofForest Collection.stairs = .ok c ∧
      let v := { new c { wraps := true } with disabledKeys := Std.HashSet.ofList [3] }
      v.config.arrangement = .stack ∧ v.collection.keys = [1, 2, 3, 4] ∧ v.stops = [2, 4] ∧
        v.below? 3 = some 4 ∧ v.above? 3 = some 2 ∧ v.below? 4 = some 2 ∧ v.above? 2 = some 4 := by
  obtain ⟨c, hc⟩ := Collection.exists_ofForest_ok_iff.2 (show Collection.stairs.keys.Nodup by decide)
  let v := { new c { wraps := true } with disabledKeys := Std.HashSet.ofList [3] }
  have hkeys : v.collection.keys = [1, 2] ++ 3 :: [4] := Collection.keys_ofForest hc
  have hnodes : v.collection.toList = Collection.stairs.nodes := Collection.toList_ofForest hc
  have hstops : v.stops = [2, 4] := by
    have hfocusable : v.isFocusable = fun n => n.isItem && !(n.disabled || 3 == n.key) := by
      funext n
      simp [isFocusable, isDisabled, v, new]
    rw [stops_eq_map, hfocusable, hnodes]
    decide
  obtain ⟨hsteps, -, hundo, hcycle, -⟩ := steps_follow_stops v rfl
  obtain ⟨hbelow, habove⟩ := hsteps _ _ _ hkeys
  rw [funext v.stopsAt_eq_decide, hstops] at hbelow habove
  have hmem : 2 ∈ v.stops ∧ 4 ∈ v.stops := by rw [hstops]; decide
  have hlast : v.below? 4 = some 2 := by
    rw [(hcycle rfl 4 hmem.2).1]
    simp only [hstops]
    rfl
  exact ⟨c, hc, rfl, hkeys, hstops, hbelow, habove, hlast, (hundo 4 hmem.2 2 hmem.1).1 hlast⟩

end Navigator

end Listbox
