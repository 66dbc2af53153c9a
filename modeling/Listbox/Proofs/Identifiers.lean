import Mathlib
import Listbox.Identifier
import Listbox.Proofs.Splitting

set_option autoImplicit false

/-! # Identifiers are not shared

An identifier is made of parts with dashes between them, but stems and displayed keys may contain
dashes and digits themselves, so it need not show where the parts are. What shows is the number that
a source puts in: it has no dash. So the last dash of a list identifier stands before its number,
whatever the stem; and in the identifier of a row the first dash after the stem stands behind it,
whatever the key. With this, the identifiers of one source are all apart (`ids_distinct`). -/

namespace Listbox

/-! ## Dashes -/

/-- The text has no dash. -/
def Dashless (s : String) : Prop := '-' ∉ s.toList

variable {a a' b b' c : String}

theorem toList_dashed (a b : String) : (dashed a b).toList = a.toList ++ '-' :: b.toList := by
  simp [dashed]

theorem not_dashless_dashed (a b : String) : ¬ Dashless (dashed a b) := by
  intro h
  rw [Dashless, toList_dashed] at h
  exact h (List.mem_append_right _ List.mem_cons_self)

theorem dashed_cases (h : dashed a b = dashed a' b') :
    (a = a' ∧ b = b') ∨ (¬ Dashless a' ∧ ¬ Dashless b) ∨ (¬ Dashless a ∧ ¬ Dashless b') := by
  have hlist : a.toList ++ '-' :: b.toList = a'.toList ++ '-' :: b'.toList := by
    rw [← toList_dashed, ← toList_dashed, h]
  simpa only [Dashless, Classical.not_not, String.toList_inj, true_and] using
    append_cons_eq_cases hlist

/-- The first dash shows where the first part ends. -/
theorem dashed_inj_of_left (ha : Dashless a) (ha' : Dashless a') :
    dashed a b = dashed a' b' ↔ a = a' ∧ b = b' := by
  constructor
  · intro h
    rcases dashed_cases h with h | ⟨h, -⟩ | ⟨h, -⟩
    · exact h
    · exact absurd ha' h
    · exact absurd ha h
  · rintro ⟨rfl, rfl⟩
    rfl

/-- The last dash shows where the last part begins. -/
theorem dashed_inj_of_right (hb : Dashless b) (hb' : Dashless b') :
    dashed a b = dashed a' b' ↔ a = a' ∧ b = b' := by
  constructor
  · intro h
    rcases dashed_cases h with h | ⟨-, h⟩ | ⟨-, h⟩
    · exact h
    · exact absurd hb h
    · exact absurd hb' h
  · rintro ⟨rfl, rfl⟩
    rfl

theorem dashed_left_inj : dashed a b = dashed a c ↔ b = c := by
  rw [dashed, dashed, String.append_right_inj]

theorem dashed_assoc (a b c : String) : dashed (dashed a b) c = dashed a (dashed b c) := by
  simp [dashed, String.append_assoc]

theorem dashless_toString (n : Nat) : Dashless (toString n) := by
  rw [Dashless, Nat.toString_eq_repr, Nat.toList_repr]
  intro h
  have hdigit : '-'.isDigit = true := Nat.isDigit_of_mem_toDigits (by decide) (by decide) h
  cases hdigit

theorem toString_inj {m n : Nat} : toString m = toString n ↔ m = n := by
  rw [Nat.toString_eq_repr, Nat.toString_eq_repr, Nat.repr_inj]

/-! ## Sources -/

namespace IdSource

theorem nextIds_eq_map (s : IdSource) (n : Nat) :
    s.nextIds n = (List.range n).map fun i => dashed s.stem (toString (s.next + i)) := by
  induction n generalizing s with
  | zero => rfl
  | succ n ih =>
    rw [nextIds, ih, List.range_succ_eq_map, List.map_cons, List.map_map]
    refine congrArg _ (List.map_congr_left fun i _ => ?_)
    simp only [nextId, Function.comp_apply, Nat.succ_eq_add_one, Nat.add_comm i, Nat.add_assoc]

theorem mem_nextIds_new_iff {stem id : String} {n : Nat} :
    id ∈ (new stem).nextIds n ↔ ∃ i < n, id = dashed stem (toString i) := by
  simp [nextIds_eq_map, new, eq_comm]

theorem nodup_nextIds (s : IdSource) (n : Nat) : (s.nextIds n).Nodup := by
  rw [nextIds_eq_map]
  refine List.nodup_range.map fun i j h => ?_
  rw [dashed_left_inj, toString_inj] at h
  exact Nat.add_left_cancel h

/-- **Identifiers.** A source never hands out one identifier twice. Rows are called the same only if
they are in the same list and display as the same, whatever that is, and never like a list of the
source; and sources with different stems share no list identifiers. -/
theorem ids_distinct (stem : String) (n : Nat) :
    ((new stem).nextIds n).Nodup ∧
    (∀ a ∈ (new stem).nextIds n, ∀ b ∈ (new stem).nextIds n, ∀ x y,
      (new stem).itemId a x = (new stem).itemId b y ↔ a = b ∧ x = y) ∧
    (∀ a ∈ (new stem).nextIds n, ∀ x, (new stem).itemId a x ∉ (new stem).nextIds n) ∧
    ∀ other, other ≠ stem → ∀ m, ∀ a ∈ (new stem).nextIds n, a ∉ (new other).nextIds m := by
  refine ⟨nodup_nextIds (new stem) n, ?_, ?_, ?_⟩
  · intro a ha b hb x y
    obtain ⟨i, -, rfl⟩ := mem_nextIds_new_iff.1 ha
    obtain ⟨j, -, rfl⟩ := mem_nextIds_new_iff.1 hb
    -- after the stem, the first dash ends the number of the list
    rw [itemId, itemId, dashed_assoc, dashed_assoc, dashed_left_inj,
      dashed_inj_of_left (dashless_toString i) (dashless_toString j), dashed_left_inj]
  · intro a ha x hx
    obtain ⟨i, -, rfl⟩ := mem_nextIds_new_iff.1 ha
    obtain ⟨j, -, hj⟩ := mem_nextIds_new_iff.1 hx
    rw [itemId, dashed_assoc, dashed_left_inj] at hj
    have hdashless := dashless_toString j
    rw [← hj] at hdashless
    exact not_dashless_dashed _ _ hdashless
  · intro other hother m a ha ha'
    obtain ⟨i, -, rfl⟩ := mem_nextIds_new_iff.1 ha
    obtain ⟨j, -, hj⟩ := mem_nextIds_new_iff.1 ha'
    -- the last dash begins the number, so the stems would be the same
    rw [dashed_inj_of_right (dashless_toString i) (dashless_toString j)] at hj
    exact hother hj.1.symm

/-- With many lists and a key that begins like one of their numbers. -/
theorem ids_distinct_list :
    let s := new "list"
    "list-1" ∈ s.nextIds 12 ∧ "list-11" ∈ s.nextIds 12 ∧
      s.itemId "list-1" "1-x" ≠ s.itemId "list-11" "x" := by
  intro s
  have hone : "list-1" ∈ s.nextIds 12 := mem_nextIds_new_iff.2 ⟨1, by decide, rfl⟩
  have heleven : "list-11" ∈ s.nextIds 12 := mem_nextIds_new_iff.2 ⟨11, by decide, rfl⟩
  obtain ⟨-, hrows, -⟩ := ids_distinct "list" 12
  refine ⟨hone, heleven, fun h => ?_⟩
  have hsame : "list-1" = "list-11" := ((hrows _ hone _ heleven _ _).1 h).1
  exact absurd hsame (by decide)

/-- A row may be called like a list of another source, though. -/
example : (new "a").itemId "a-1" "1" ∈ (new "a-1").nextIds 2 := by decide

end IdSource

end Listbox
