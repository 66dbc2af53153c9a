import Mathlib.Data.List.Induction

set_option autoImplicit false

/-! # Where a list is split

Histories and identifiers are lists that are taken apart at a member. These lemmas compare two ways
to take the same list apart. -/

universe u

namespace Listbox

variable {α : Type u} {x y : α} {a a' b b' before since past : List α}

/-- Two ways to split a list at a member are the same, or each member is beside the other. -/
theorem append_cons_eq_cases (h : a ++ x :: b = a' ++ y :: b') :
    (a = a' ∧ x = y ∧ b = b') ∨ (x ∈ a' ∧ y ∈ b) ∨ (y ∈ a ∧ x ∈ b') := by
  rcases List.append_eq_append_iff.1 h with ⟨rest, rfl, hrest⟩ | ⟨rest, rfl, hrest⟩
  · cases rest with
    | nil =>
      obtain ⟨hx, hb⟩ := List.cons.inj hrest
      exact Or.inl ⟨(List.append_nil a).symm, hx, hb⟩
    | cons z rest =>
      obtain ⟨rfl, rfl⟩ := List.cons.inj hrest
      exact Or.inr (Or.inl ⟨by simp, by simp⟩)
  · cases rest with
    | nil =>
      obtain ⟨hy, hb⟩ := List.cons.inj hrest
      exact Or.inl ⟨List.append_nil a', hy.symm, hb.symm⟩
    | cons z rest =>
      obtain ⟨rfl, rfl⟩ := List.cons.inj hrest
      exact Or.inr (Or.inr ⟨by simp, by simp⟩)

/-- Events that end with `x` and are split before a later part: either `x` is where they are split,
or it ends the later part. -/
theorem concat_eq_append_cons_iff :
    past ++ [x] = before ++ y :: since ↔
      (since = [] ∧ past = before ∧ x = y) ∨
        ∃ since', since = since' ++ [x] ∧ past = before ++ y :: since' := by
  constructor
  · intro h
    rcases List.eq_nil_or_concat since with rfl | ⟨since', z, rfl⟩
    · obtain ⟨hpast, hx⟩ := List.append_inj' h rfl
      exact Or.inl ⟨rfl, hpast, List.cons.inj hx |>.1⟩
    · rw [List.concat_eq_append, ← List.cons_append, ← List.append_assoc] at h
      obtain ⟨hpast, hx⟩ := List.append_inj' h rfl
      cases hx
      exact Or.inr ⟨since', List.concat_eq_append, hpast⟩
  · rintro (⟨rfl, rfl, rfl⟩ | ⟨since', rfl, rfl⟩)
    · rfl
    · rw [List.append_assoc, List.cons_append]

end Listbox
