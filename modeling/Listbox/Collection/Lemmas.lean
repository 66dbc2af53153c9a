import Listbox.Collection.Assembly.Lemmas
import Listbox.Collection.Basic

set_option autoImplicit false

/-! # Positions and keys

What the table of a collection knows: numbering succeeds exactly on distinct keys, and fails with the
first key that repeats an earlier one. So a key is at a position of a collection exactly if the table
says so, and reading by key is reading the node at that position. -/

universe u v

namespace Listbox

variable {K : Type u} {T : Type v} [DecidableEq K] [Hashable K]

/-! ## Numbering -/

/-- The positions that numbering adds are those in the list, and it only adds. -/
theorem numberKeys_ok {ks : List K} {start : Nat} {seen positions : Std.HashMap K Nat}
    (h : numberKeys start seen ks = .ok positions) (k : K) (i : Nat) :
    positions[k]? = some i ↔ (∃ j, ks[j]? = some k ∧ i = start + j) ∨ seen[k]? = some i := by
  induction ks generalizing start seen with
  | nil =>
    cases h
    simp
  | cons k' ks ih =>
    rw [numberKeys] at h
    split at h
    · cases h
    · next fresh =>
      rw [ih h, Std.HashMap.getElem?_insert]
      have fresh' : seen[k']? = none := by simpa using fresh
      by_cases hk : k' = k
      · subst hk
        simp only [beq_self_eq_true, ↓reduceIte, Option.some.injEq, fresh', reduceCtorEq, or_false]
        constructor
        · rintro (⟨j, hj, rfl⟩ | rfl)
          · exact ⟨j + 1, hj, by omega⟩
          · exact ⟨0, rfl, rfl⟩
        · rintro ⟨j, hj, rfl⟩
          cases j with
          | zero => exact Or.inr rfl
          | succ j => exact Or.inl ⟨j, hj, by omega⟩
      · simp only [beq_iff_eq, hk, ↓reduceIte]
        constructor
        · rintro (⟨j, hj, rfl⟩ | hs)
          · exact Or.inl ⟨j + 1, hj, by omega⟩
          · exact Or.inr hs
        · rintro (⟨j, hj, rfl⟩ | hs)
          · cases j with
            | zero => simp [hk] at hj
            | succ j => exact Or.inl ⟨j, hj, by omega⟩
          · exact Or.inr hs

/-- Numbering succeeds exactly on distinct keys that have no position yet. -/
theorem exists_numberKeys_ok_iff (ks : List K) (start : Nat) (seen : Std.HashMap K Nat) :
    (∃ positions, numberKeys start seen ks = .ok positions) ↔
      ks.Nodup ∧ ∀ k ∈ ks, seen.contains k = false := by
  induction ks generalizing start seen with
  | nil => simp [numberKeys]
  | cons k ks ih =>
    rw [numberKeys]
    split
    · next known =>
      constructor
      · rintro ⟨_, h⟩
        cases h
      · rintro ⟨-, apart⟩
        rw [apart k List.mem_cons_self] at known
        cases known
    · next fresh =>
      rw [ih, List.nodup_cons]
      simp only [Std.HashMap.contains_insert, Bool.or_eq_false_iff, beq_eq_false_iff_ne,
        List.mem_cons, forall_eq_or_imp]
      constructor
      · rintro ⟨distinct, apart⟩
        exact ⟨⟨fun hk => (apart k hk).1 rfl, distinct⟩, by simpa using fresh,
          fun k' hk' => (apart k' hk').2⟩
      · rintro ⟨⟨hk, distinct⟩, -, apart⟩
        exact ⟨distinct, fun k' hk' => ⟨fun e => hk (e ▸ hk'), apart k' hk'⟩⟩

/-- Numbering fails with the first key that repeats an earlier one or has a position already. -/
theorem numberKeys_eq_error_iff (ks : List K) (start : Nat) (seen : Std.HashMap K Nat) (k : K) :
    numberKeys start seen ks = .error (.duplicateKey k) ↔
      ∃ before after, ks = before ++ k :: after ∧ before.Nodup ∧
        (∀ k' ∈ before, seen.contains k' = false) ∧ (k ∈ before ∨ seen.contains k = true) := by
  induction ks generalizing start seen with
  | nil => simp [numberKeys]
  | cons k₀ ks ih =>
    rw [numberKeys]
    split
    · next known =>
      constructor
      · intro h
        cases h
        exact ⟨[], ks, rfl, List.nodup_nil, by simp, Or.inr known⟩
      · rintro ⟨before, after, hks, -, apart, -⟩
        cases before with
        | nil =>
          cases hks
          rfl
        | cons k' before =>
          cases hks
          exact absurd known (by simp [apart k₀ List.mem_cons_self])
    · next fresh =>
      rw [ih]
      simp only [Std.HashMap.contains_insert, Bool.or_eq_false_iff, beq_eq_false_iff_ne,
        Bool.or_eq_true, beq_iff_eq]
      constructor
      · rintro ⟨before, after, rfl, distinct, apart, repeated⟩
        refine ⟨k₀ :: before, after, rfl, ?_, ?_, ?_⟩
        · exact List.nodup_cons.2 ⟨fun hk => (apart k₀ hk).1 rfl, distinct⟩
        · rintro k' hk'
          rcases List.mem_cons.1 hk' with rfl | hk'
          · simpa using fresh
          · exact (apart k' hk').2
        · rcases repeated with hk | rfl | hk
          · exact Or.inl (List.mem_cons_of_mem _ hk)
          · exact Or.inl List.mem_cons_self
          · exact Or.inr hk
      · rintro ⟨before, after, hks, distinct, apart, repeated⟩
        cases before with
        | nil =>
          cases hks
          rcases repeated with hk | hk
          · cases hk
          · exact absurd hk fresh
        | cons k' before =>
          cases hks
          obtain ⟨hk₀, distinct⟩ := List.nodup_cons.1 distinct
          refine ⟨before, after, rfl, distinct, fun k' hk' => ⟨fun e => hk₀ (e ▸ hk'), ?_⟩, ?_⟩
          · exact apart k' (List.mem_cons_of_mem _ hk')
          · rcases repeated with hk | hk
            · rcases List.mem_cons.1 hk with rfl | hk
              · exact Or.inr (Or.inl rfl)
              · exact Or.inl hk
            · exact Or.inr (Or.inr hk)

namespace Collection

/-! ## Building -/

/-- Building is assembling, and the outcome is kept with the forest. -/
theorem map_toAssembly_ofForest (f : Forest (Entry K T)) :
    (ofForest f).map (·.toAssembly) = Assembly.assemble f := by
  unfold ofForest
  split
  · next a ha => exact ha.symm
  · next e he => exact he.symm

/-- Building fails exactly if numbering the keys does. -/
theorem ofForest_eq_error_iff {f : Forest (Entry K T)} {e : BuildError K} :
    ofForest f = .error e ↔ numberKeys 0 ∅ f.keys = .error e := by
  have h := map_toAssembly_ofForest f
  rw [Assembly.assemble_eq] at h
  cases hf : ofForest f with
  | ok c =>
    rw [hf] at h
    cases hpos : numberKeys 0 ∅ f.keys with
    | ok positions => simp
    | error e' =>
      rw [hpos] at h
      cases h
  | error e₀ =>
    rw [hf] at h
    cases hpos : numberKeys 0 ∅ f.keys with
    | ok positions =>
      rw [hpos] at h
      cases h
    | error e' =>
      rw [hpos] at h
      cases h
      rw [Except.error.injEq, Except.error.injEq]

/-- A collection is the collection of the forest that it was assembled from. -/
theorem exists_ofForest (c : Collection K T) : ∃ f, ofForest f = .ok c := by
  obtain ⟨a, f, ha⟩ := c
  refine ⟨f, ?_⟩
  have h := map_toAssembly_ofForest f
  rw [ha] at h
  cases hf : ofForest f with
  | ok c =>
    rw [hf] at h
    cases h
    rfl
  | error e =>
    rw [hf] at h
    cases h

/-- Building makes the layout of the forest, numbers its keys and counts its items. -/
theorem laidOut_ofForest {f : Forest (Entry K T)} {c : Collection K T} (h : ofForest f = .ok c) :
    c.toList = f.nodes ∧ numberKeys 0 ∅ f.keys = .ok c.positions ∧
      c.itemCount = f.preorder.countP (·.isItem) := by
  have ha := map_toAssembly_ofForest f
  rw [h, Assembly.assemble_eq] at ha
  cases hpos : numberKeys 0 ∅ f.keys with
  | error e =>
    rw [hpos] at ha
    cases ha
  | ok positions =>
    rw [hpos] at ha
    have hc : c.toAssembly = _ := Except.ok.inj ha
    rw [toList, hc]
    exact ⟨rfl, rfl, rfl⟩

theorem toList_ofForest {f : Forest (Entry K T)} {c : Collection K T} (h : ofForest f = .ok c) :
    c.toList = f.nodes :=
  (laidOut_ofForest h).1

theorem keys_ofForest {f : Forest (Entry K T)} {c : Collection K T} (h : ofForest f = .ok c) :
    c.keys = f.keys := by
  rw [keys, toList_ofForest h]
  exact Forest.map_key_layOut ..

/-- Building succeeds exactly on distinct keys. -/
theorem exists_ofForest_ok_iff {f : Forest (Entry K T)} :
    (∃ c, ofForest f = .ok c) ↔ f.keys.Nodup := by
  have h := exists_numberKeys_ok_iff f.keys 0 ∅
  simp only [Std.HashMap.contains_empty, implies_true, and_true] at h
  rw [← h]
  constructor
  · rintro ⟨c, hc⟩
    exact ⟨c.positions, (laidOut_ofForest hc).2.1⟩
  · rintro ⟨positions, hpos⟩
    cases hf : ofForest f with
    | ok c => exact ⟨c, rfl⟩
    | error e =>
      rw [ofForest_eq_error_iff, hpos] at hf
      cases hf

@[simp] theorem length_toList (c : Collection K T) : c.toList.length = c.size := rfl

@[simp] theorem length_keys (c : Collection K T) : c.keys.length = c.size := by simp [keys]

theorem nodup_keys (c : Collection K T) : c.keys.Nodup := by
  obtain ⟨f, hf⟩ := c.exists_ofForest
  rw [keys_ofForest hf]
  exact exists_ofForest_ok_iff.1 ⟨c, hf⟩

/-! ## Reading -/

theorem at?_eq (c : Collection K T) (i : Nat) : c.at? i = c.toList[i]? := by simp [at?, toList]

/-- **The table is right.** A key has a position exactly if it stands there. -/
theorem position?_eq_some_iff {c : Collection K T} {k : K} {i : Nat} :
    c.position? k = some i ↔ c.keys[i]? = some k := by
  obtain ⟨f, hf⟩ := c.exists_ofForest
  rw [position?, keys_ofForest hf, numberKeys_ok (laidOut_ofForest hf).2.1]
  simp

/-- A key is at its place among the keys. -/
theorem position?_eq_idxOf? (c : Collection K T) (k : K) : c.position? k = c.keys.idxOf? k := by
  refine Option.ext fun i => ?_
  rw [position?_eq_some_iff, List.idxOf?_eq_some_iff, List.getElem?_eq_some_iff]
  constructor
  · rintro ⟨hi, rfl⟩
    exact ⟨hi, rfl, fun j hj hsame =>
      Nat.ne_of_lt hj ((List.getElem_inj c.nodup_keys).1 hsame)⟩
  · rintro ⟨hi, hkey, -⟩
    exact ⟨hi, hkey⟩

/-- A row stands where its key stands in the forest. -/
theorem position?_ofForest {f : Forest (Entry K T)} {c : Collection K T} {k : K} {i : Nat}
    (h : ofForest f = .ok c) : c.position? k = some i ↔ f.keys[i]? = some k := by
  rw [position?_eq_some_iff, keys_ofForest h]

theorem position?_lt {c : Collection K T} {k : K} {i : Nat} (h : c.position? k = some i) :
    i < c.size := by
  rw [position?_eq_some_iff] at h
  simpa using (List.getElem?_eq_some_iff.1 h).1

theorem index_at? {c : Collection K T} {i : Nat} {n : Node K T} (h : c.at? i = some n) :
    n.index = i := by
  obtain ⟨f, hf⟩ := c.exists_ofForest
  rw [at?_eq, toList_ofForest hf] at h
  have hi : (f.nodes.map (·.index))[i]? = some n.index := by rw [List.getElem?_map, h]; rfl
  rw [Forest.nodes, Forest.map_index_layOut] at hi
  obtain ⟨_, hi⟩ := List.getElem?_eq_some_iff.1 hi
  rw [List.getElem_range'] at hi
  omega

theorem get?_eq_some_iff {c : Collection K T} {k : K} {n : Node K T} :
    c.get? k = some n ↔ n ∈ c.toList ∧ n.key = k := by
  unfold get?
  rw [Option.bind_eq_some_iff]
  constructor
  · rintro ⟨i, hi, hn⟩
    rw [position?_eq_some_iff, keys, List.getElem?_map, ← at?_eq, hn] at hi
    rw [at?_eq] at hn
    exact ⟨List.mem_of_getElem? hn, by simpa using hi⟩
  · rintro ⟨hn, rfl⟩
    obtain ⟨i, hi⟩ := List.mem_iff_getElem?.1 hn
    refine ⟨i, ?_, by rw [at?_eq, hi]⟩
    rw [position?_eq_some_iff, keys, List.getElem?_map, hi]
    rfl

/-- A key names one row. -/
theorem eq_of_key_eq {c : Collection K T} {n m : Node K T} (hn : n ∈ c.toList) (hm : m ∈ c.toList)
    (h : n.key = m.key) : n = m := by
  have hget : c.get? m.key = some n := get?_eq_some_iff.2 ⟨hn, h⟩
  rw [get?_eq_some_iff.2 ⟨hm, rfl⟩] at hget
  exact (Option.some.inj hget).symm

theorem position?_eq_none {c : Collection K T} {k : K} (h : c.contains k = false) :
    c.position? k = none :=
  Option.isNone_iff_eq_none.1 (Option.isSome_eq_false_iff.1 h)

theorem contains_iff_mem_keys {c : Collection K T} {k : K} : c.contains k ↔ k ∈ c.keys := by
  unfold contains
  rw [Option.isSome_iff_exists, List.mem_iff_getElem?]
  exact exists_congr fun i => position?_eq_some_iff

theorem contains_eq_isSome_get? (c : Collection K T) (k : K) : c.contains k = (c.get? k).isSome := by
  rw [Bool.eq_iff_iff, contains_iff_mem_keys, Option.isSome_iff_exists, keys, List.mem_map]
  simp only [get?_eq_some_iff]

/-- The position of a key is the index of its node. -/
theorem position?_eq_map_index (c : Collection K T) (k : K) :
    c.position? k = (c.get? k).map (·.index) := by
  unfold get?
  cases h : c.position? k with
  | none => rfl
  | some i =>
    rw [position?_eq_some_iff, keys, List.getElem?_map, ← at?_eq] at h
    cases hn : c.at? i with
    | none => simp [hn] at h
    | some n => simp [hn, index_at? hn]

end Collection

end Listbox
