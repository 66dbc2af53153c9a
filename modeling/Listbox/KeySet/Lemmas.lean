import Listbox.KeySet

set_option autoImplicit false

/-! # The members of a key set

A key set is looked at through its list of items. Each operation has one equation for it, adding and
removing many keys is adding and removing them one at a time, and the comparisons ask whether the
members are the same. -/

universe u

namespace Listbox.KeySet

variable {K : Type u}

/-! ## Roles -/

@[simp] theorem items_single (k : K) : (single k).items = [k] := rfl

@[simp] theorem items_withRoles (s : KeySet K) (a b : Option K) :
    (s.withRoles a b).items = s.items := rfl

@[simp] theorem items_filter (s : KeySet K) (p : K → Bool) :
    (s.filter p).items = s.items.filter p := rfl

@[simp] theorem anchor_filter (s : KeySet K) (p : K → Bool) :
    (s.filter p).anchor = s.anchor.filter p := rfl

@[simp] theorem current_filter (s : KeySet K) (p : K → Bool) :
    (s.filter p).current = s.current.filter p := rfl

theorem isEmpty_iff {s : KeySet K} : s.isEmpty ↔ s.items = [] := by simp [isEmpty]

/-- Filtering asks about exactly the keys that the set mentions. -/
theorem filter_congr {s : KeySet K} {p q : K → Bool} (h : ∀ k ∈ s.mentioned, p k = q k) :
    s.filter p = s.filter q := by
  have roles : ∀ role : Option K, role.toList ⊆ s.mentioned → role.filter p = role.filter q := by
    rintro (_ | k) hk
    · rfl
    · simp [Option.filter, h k (hk List.mem_cons_self)]
  ext1
  · exact List.filter_congr fun k hk => h k (by simp [mentioned, hk])
  · exact roles _ fun k hk => by simp [mentioned, hk]
  · exact roles _ fun k hk => by simp [mentioned, hk]

/-- A set of which every mentioned key passes is left as it is. -/
theorem filter_eq_self {s : KeySet K} {p : K → Bool} (h : ∀ k ∈ s.mentioned, p k) :
    s.filter p = s := by
  have hroles : ∀ role : Option K, role.filter (fun _ => true) = role := by
    rintro (_ | k) <;> rfl
  rw [filter_congr (q := fun _ => true) h]
  ext1
  · exact List.filter_eq_self.2 fun _ _ => rfl
  · exact hroles s.anchor
  · exact hroles s.current

/-- Sets with the same members are of one size. -/
theorem size_eq_of_mem_iff {s t : KeySet K} (h : ∀ k, k ∈ s.items ↔ k ∈ t.items) :
    s.size = t.size :=
  ((List.perm_ext_iff_of_nodup s.nodup t.nodup).2 h).length_eq

section DecidableKeys

variable [DecidableEq K]

/-! ## One key at a time -/

@[simp] theorem contains_iff {s : KeySet K} {k : K} : s.contains k = true ↔ k ∈ s.items := by
  simp [contains]

theorem items_insert (s : KeySet K) (k : K) :
    (s.insert k).items = if k ∈ s.items then s.items else s.items ++ [k] := by
  unfold insert
  split <;> rfl

@[simp] theorem anchor_insert (s : KeySet K) (k : K) : (s.insert k).anchor = s.anchor := by
  unfold insert
  split <;> rfl

@[simp] theorem current_insert (s : KeySet K) (k : K) : (s.insert k).current = s.current := by
  unfold insert
  split <;> rfl

@[simp] theorem mem_items_insert {s : KeySet K} {k k' : K} :
    k' ∈ (s.insert k).items ↔ k' ∈ s.items ∨ k' = k := by
  rw [items_insert]
  split
  · next h =>
    constructor
    · exact Or.inl
    · rintro (h' | rfl)
      · exact h'
      · exact h
  · simp

@[simp] theorem items_erase (s : KeySet K) (k : K) : (s.erase k).items = s.items.erase k := rfl

theorem mem_items_erase {s : KeySet K} {k k' : K} :
    k' ∈ (s.erase k).items ↔ k' ≠ k ∧ k' ∈ s.items :=
  s.nodup.mem_erase_iff

theorem mem_items_foldl_insert {ks : List K} {s : KeySet K} {k : K} :
    k ∈ (ks.foldl insert s).items ↔ k ∈ s.items ∨ k ∈ ks := by
  induction ks generalizing s with
  | nil => simp
  | cons k' ks ih => rw [List.foldl_cons, ih, mem_items_insert, List.mem_cons, or_assoc]

@[simp] theorem mem_items_ofList {ks : List K} {k : K} : k ∈ (ofList ks).items ↔ k ∈ ks := by
  simp [ofList, mem_items_foldl_insert, empty]

/-- Keys come in at their first occurrence, unless they are there already. -/
theorem items_foldl_insert_eq_append (ks : List K) (s : KeySet K) :
    (ks.foldl insert s).items = s.items ++ (ks.filter fun k => k ∉ s.items).eraseDups := by
  induction ks generalizing s with
  | nil => simp
  | cons k ks ih =>
    rw [List.foldl_cons, ih]
    by_cases hk : k ∈ s.items
    · have hs : s.insert k = s := by simp [insert, hk]
      rw [hs, List.filter_cons_of_neg (by simpa using hk)]
    · have hs : (s.insert k).items = s.items ++ [k] := by simp [items_insert, hk]
      -- what is new besides `k` is what was new before and is not `k`
      have hrest : (ks.filter fun x => x ∉ s.items ++ [k]) =
          (ks.filter fun x => x ∉ s.items).filter fun x => !x == k := by
        rw [List.filter_filter]
        refine List.filter_congr fun x _ => ?_
        rw [Bool.eq_iff_iff]
        simp [and_comm]
      rw [List.filter_cons_of_pos (by simpa using hk), List.eraseDups_cons, hs, hrest,
        List.append_assoc, List.singleton_append]

theorem items_ofList (ks : List K) : (ofList ks).items = ks.eraseDups := by
  have hall : (ks.filter fun k => k ∉ (empty : KeySet K).items) = ks := by simp [empty]
  rw [ofList, items_foldl_insert_eq_append, hall]
  rfl

/-- A list without repetition has no second occurrences. -/
theorem eraseDups_of_nodup {ks : List K} (h : ks.Nodup) : ks.eraseDups = ks := by
  induction ks with
  | nil => rfl
  | cons k ks ih =>
    obtain ⟨hk, hks⟩ := List.nodup_cons.1 h
    have hothers : (ks.filter fun x => !x == k) = ks := by
      refine List.filter_eq_self.2 fun x hx => ?_
      have hne : x ≠ k := fun e => hk (e ▸ hx)
      simpa using hne
    rw [List.eraseDups_cons, hothers, ih hks]

/-! ## Comparing -/

/-- Of two lists without repetition and of one length, one has the members of the other if it has
none besides. -/
theorem mem_iff_of_subset_of_length {xs ys : List K} (hx : xs.Nodup) (hy : ys.Nodup)
    (hlen : xs.length = ys.length) (h : ∀ k ∈ xs, k ∈ ys) (k : K) : k ∈ xs ↔ k ∈ ys := by
  refine ⟨h k, fun hk => ?_⟩
  induction xs generalizing ys with
  | nil =>
    have : ys = [] := List.length_eq_zero_iff.1 hlen.symm
    simp [this] at hk
  | cons x xs ih =>
    obtain ⟨hx₀, hx⟩ := List.nodup_cons.1 hx
    have hxy := h x List.mem_cons_self
    by_cases e : k = x
    · exact e ▸ List.mem_cons_self
    · refine List.mem_cons_of_mem _ (ih hx (hy.erase x) ?_ ?_ ?_)
      · rw [List.length_erase_of_mem hxy, ← hlen]
        rfl
      · intro y hy'
        have ne : y ≠ x := fun e => hx₀ (e ▸ hy')
        exact (List.mem_erase_of_ne ne).2 (h y (List.mem_cons_of_mem _ hy'))
      · exact (List.mem_erase_of_ne e).2 hk

/-- **Equality.** Sets are the same exactly if they have the same members. -/
theorem sameKeys_iff {s t : KeySet K} :
    s.sameKeys t = true ↔ ∀ k, k ∈ s.items ↔ k ∈ t.items := by
  simp only [sameKeys, Bool.and_eq_true, beq_iff_eq, List.all_eq_true, contains_iff]
  constructor
  · rintro ⟨hlen, h⟩
    exact mem_iff_of_subset_of_length s.nodup t.nodup hlen h
  · intro h
    exact ⟨size_eq_of_mem_iff h, fun k => (h k).1⟩

end DecidableKeys

/-! ## Many keys at a time -/

section HashedKeys

variable [DecidableEq K] [Hashable K]

/-- Skipping the keys that were seen is adding the keys one at a time. -/
theorem foldl_insert_eq (ks : List K) (s : KeySet K) (seen : Std.HashSet K)
    (h : ∀ k, seen.contains k = true ↔ k ∈ s.items) :
    (ks.foldl insert s).items = s.items ++ unseen seen ks ∧
      (ks.foldl insert s).anchor = s.anchor ∧ (ks.foldl insert s).current = s.current := by
  induction ks generalizing s seen with
  | nil => simp [unseen]
  | cons k ks ih =>
    rw [unseen, List.foldl_cons]
    split
    · next hk =>
      have hs : s.insert k = s := by simp [insert, (h k).1 hk]
      rw [hs]
      exact ih s seen h
    · next hk =>
      have hk' : k ∉ s.items := fun hk' => hk ((h k).2 hk')
      have hs : (s.insert k).items = s.items ++ [k] := by simp [items_insert, hk']
      have step := ih (s.insert k) (seen.insert k) (by rw [hs]; exact contains_insert_iff h k)
      rw [hs, List.append_assoc, anchor_insert, current_insert] at step
      exact step

/-- **Adding many.** Adding a list of keys is adding them one at a time. -/
theorem insertMany_eq_foldl (s : KeySet K) (ks : List K) : s.insertMany ks = ks.foldl insert s := by
  obtain ⟨items, anchor, current⟩ := foldl_insert_eq ks s (Std.HashSet.ofList s.items) (by simp)
  ext1
  · exact items.symm
  · exact anchor.symm
  · exact current.symm

theorem ofListHashed_eq_ofList (ks : List K) : ofListHashed ks = ofList ks :=
  insertMany_eq_foldl empty ks

theorem items_eraseMany (s : KeySet K) (ks : List K) :
    (s.eraseMany ks).items = s.items.filter fun k => !ks.contains k := by
  simp [eraseMany]

/-- **Removing many.** Removing a list of keys is removing them one at a time. -/
theorem eraseMany_eq_foldl (s : KeySet K) (ks : List K) : s.eraseMany ks = ks.foldl erase s := by
  induction ks generalizing s with
  | nil =>
    ext1
    · exact (items_eraseMany s []).trans (List.filter_eq_self.2 fun k _ => by simp)
    · rfl
    · rfl
  | cons k ks ih =>
    rw [List.foldl_cons, ← ih (s.erase k)]
    ext1
    · rw [items_eraseMany, items_eraseMany, items_erase, s.nodup.erase_eq_filter,
        List.filter_filter]
      refine List.filter_congr fun k' _ => ?_
      rw [List.contains_cons, Bool.not_or, Bool.and_comm]
      rfl
    · rfl
    · rfl

@[simp] theorem mem_items_eraseMany {s : KeySet K} {ks : List K} {k : K} :
    k ∈ (s.eraseMany ks).items ↔ k ∈ s.items ∧ k ∉ ks := by
  simp [items_eraseMany]

@[simp] theorem mem_items_insertMany {s : KeySet K} {ks : List K} {k : K} :
    k ∈ (s.insertMany ks).items ↔ k ∈ s.items ∨ k ∈ ks := by
  rw [insertMany_eq_foldl, mem_items_foldl_insert]

/-- Distinct keys are added as they come, less those that are there. -/
theorem items_insertMany_of_nodup {ks : List K} (h : ks.Nodup) (s : KeySet K) :
    (s.insertMany ks).items = s.items ++ ks.filter fun k => k ∉ s.items := by
  rw [insertMany_eq_foldl, items_foldl_insert_eq_append, eraseDups_of_nodup (h.filter _)]

/-- The comparison with a table asks whether the second set has no members besides. -/
theorem sameKeysHashed_eq (s t : KeySet K) : s.sameKeysHashed t = t.sameKeys s := by
  simp only [sameKeysHashed, sameKeys]
  congr 1
  · exact Bool.beq_comm
  · refine List.all_congr rfl fun k => ?_
    simp [contains]

theorem sameKeysHashed_iff {s t : KeySet K} :
    s.sameKeysHashed t = true ↔ ∀ k, k ∈ s.items ↔ k ∈ t.items := by
  rw [sameKeysHashed_eq, sameKeys_iff]
  exact forall_congr' fun k => Iff.comm

end HashedKeys

end Listbox.KeySet
