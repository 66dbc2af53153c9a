import Listbox.KeySet.Lemmas
import Listbox.Selection

set_option autoImplicit false

/-! # Editing key sets

A key set begins as one of a few sets and is edited from there on. What becomes of its keys is said
here a second time, of plain lists and one key at a time: a key is added at the end unless it is
there, and taken out where it stands. Editing a key set is editing the list of its keys, with a hash
table or without, and on lists it can be seen that no key ever comes twice.

Without repetition, sets of one size are the same as soon as one has the members of the other, so it
does not matter which of the two a comparison goes through. -/

universe u

namespace Listbox.KeySet

/-- What can be done to a key set. -/
inductive Edit (K : Type u) where
  | insert (k : K)
  | erase (k : K)
  | filter (p : K → Bool)
  | insertMany (ks : List K)
  | eraseMany (ks : List K)
  | setAnchor (k : Option K)
  | setCurrent (k : Option K)

/-- What a key set can begin as. -/
inductive Origin (K : Type u) where
  | empty
  | single (k : K)
  | ofList (ks : List K)
  | ofListHashed (ks : List K)

variable {K : Type u} [DecidableEq K]

/-! ## On lists -/

/-- A list with one more key at the end, unless it is there. -/
def addKey (xs : List K) (k : K) : List K := if k ∈ xs then xs else xs ++ [k]

/-- What an edit does to the keys. -/
def Edit.onKeys : Edit K → List K → List K
  | .insert k, xs => addKey xs k
  | .erase k, xs => xs.erase k
  | .filter p, xs => xs.filter p
  | .insertMany ks, xs => ks.foldl addKey xs
  | .eraseMany ks, xs => ks.foldl List.erase xs
  | .setAnchor _, xs | .setCurrent _, xs => xs

/-- The keys to begin with. -/
def Origin.keys : Origin K → List K
  | .empty => []
  | .single k => [k]
  | .ofList ks | .ofListHashed ks => ks.foldl addKey []

theorem nodup_addKey {xs : List K} (h : xs.Nodup) (k : K) : (addKey xs k).Nodup := by
  unfold addKey
  split
  · exact h
  · next hk => exact nodup_append_singleton h hk

theorem nodup_foldl_addKey {xs : List K} (h : xs.Nodup) (ks : List K) :
    (ks.foldl addKey xs).Nodup := by
  induction ks generalizing xs with
  | nil => exact h
  | cons k ks ih => exact ih (nodup_addKey h k)

theorem nodup_foldl_erase {xs : List K} (h : xs.Nodup) (ks : List K) :
    (ks.foldl List.erase xs).Nodup := by
  induction ks generalizing xs with
  | nil => exact h
  | cons k ks ih => exact ih (h.erase k)

theorem Origin.nodup_keys (o : Origin K) : o.keys.Nodup := by
  cases o with
  | empty => exact List.nodup_nil
  | single k => simp [keys]
  | ofList ks | ofListHashed ks => exact nodup_foldl_addKey List.nodup_nil ks

/-- **Step.** No edit makes a key come twice. -/
theorem Edit.nodup_onKeys (e : Edit K) {xs : List K} (h : xs.Nodup) : (e.onKeys xs).Nodup := by
  cases e with
  | insert k => exact nodup_addKey h k
  | erase k => exact h.erase k
  | filter p => exact h.filter p
  | insertMany ks => exact nodup_foldl_addKey h ks
  | eraseMany ks => exact nodup_foldl_erase h ks
  | setAnchor | setCurrent => exact h

/-- **Runs.** Neither does any number of them. -/
theorem nodup_foldl_onKeys {xs : List K} (h : xs.Nodup) (edits : List (Edit K)) :
    (edits.foldl (fun xs e => e.onKeys xs) xs).Nodup := by
  induction edits generalizing xs with
  | nil => exact h
  | cons e edits ih => exact ih (e.nodup_onKeys h)

/-! ## On key sets -/

theorem items_insert_eq_addKey (s : KeySet K) (k : K) : (s.insert k).items = addKey s.items k :=
  items_insert s k

theorem items_foldl_insert (s : KeySet K) (ks : List K) :
    (ks.foldl insert s).items = ks.foldl addKey s.items := by
  induction ks generalizing s with
  | nil => rfl
  | cons k ks ih => rw [List.foldl_cons, ih, items_insert_eq_addKey, List.foldl_cons]

theorem items_foldl_erase (s : KeySet K) (ks : List K) :
    (ks.foldl erase s).items = ks.foldl List.erase s.items := by
  induction ks generalizing s with
  | nil => rfl
  | cons k ks ih => exact ih (s.erase k)

section HashedKeys

variable [Hashable K]

/-- Carries an edit out. -/
def edit (s : KeySet K) : Edit K → KeySet K
  | .insert k => s.insert k
  | .erase k => s.erase k
  | .filter p => s.filter p
  | .insertMany ks => s.insertMany ks
  | .eraseMany ks => s.eraseMany ks
  | .setAnchor k => s.withRoles k s.current
  | .setCurrent k => s.withRoles s.anchor k

/-- Carries edits out in order. -/
def run (s : KeySet K) (edits : List (Edit K)) : KeySet K := edits.foldl edit s

/-- The key set to begin with. -/
def Origin.keySet : Origin K → KeySet K
  | .empty => ∅
  | .single k => KeySet.single k
  | .ofList ks => KeySet.ofList ks
  | .ofListHashed ks => KeySet.ofListHashed ks

theorem Origin.items_keySet (o : Origin K) : o.keySet.items = o.keys := by
  cases o with
  | empty => rfl
  | single k => rfl
  | ofList ks => exact items_foldl_insert .empty ks
  | ofListHashed ks =>
    rw [keySet, ofListHashed_eq_ofList]
    exact items_foldl_insert .empty ks

/-- **Step.** Editing a key set is editing the list of its keys. -/
theorem items_edit (s : KeySet K) (e : Edit K) : (s.edit e).items = e.onKeys s.items := by
  cases e with
  | insert k => exact items_insert_eq_addKey s k
  | erase k => rfl
  | filter p => rfl
  | insertMany ks => rw [edit, insertMany_eq_foldl, items_foldl_insert, Edit.onKeys]
  | eraseMany ks => rw [edit, eraseMany_eq_foldl, items_foldl_erase, Edit.onKeys]
  | setAnchor | setCurrent => rfl

/-- **Runs.** So is editing it any number of times. -/
theorem items_run (s : KeySet K) (edits : List (Edit K)) :
    (s.run edits).items = edits.foldl (fun xs e => e.onKeys xs) s.items := by
  induction edits generalizing s with
  | nil => rfl
  | cons e edits ih => exact (ih (s.edit e)).trans (by rw [items_edit, List.foldl_cons])

end HashedKeys

/-! ## Comparing -/

theorem equivalence_sameKeys : Equivalence fun s t : KeySet K => s.sameKeys t = true where
  refl _ := sameKeys_iff.2 fun _ => Iff.rfl
  symm h := by
    rw [sameKeys_iff] at h ⊢
    intro k
    exact (h k).symm
  trans h h' := by
    rw [sameKeys_iff] at h h' ⊢
    intro k
    exact (h k).trans (h' k)

theorem sameKeys_withRoles_of_perm {s t : KeySet K} (h : s.items.Perm t.items)
    (anchor current : Option K) : (s.withRoles anchor current).sameKeys t = true :=
  sameKeys_iff.2 fun _ => h.mem_iff

/-- **Key sets.** However a key set comes about, its keys are those that the edits leave one at a
time, and none of them comes twice. Adding, collecting and removing many keys with a hash table is
doing so one at a time, and the roles stay. Each way to compare two sets asks whether they have the
same members; being the same is an equivalence, to which neither order nor roles matter. -/
theorem editing_agrees [Hashable K] :
    (∀ (o : Origin K) (edits : List (Edit K)),
      (o.keySet.run edits).items = edits.foldl (fun xs e => e.onKeys xs) o.keys ∧
        (edits.foldl (fun xs e => e.onKeys xs) o.keys).Nodup) ∧
    (∀ (s : KeySet K) (ks : List K),
      s.insertMany ks = ks.foldl insert s ∧ (s.insertMany ks).anchor = s.anchor ∧
        (s.insertMany ks).current = s.current) ∧
    (∀ ks : List K, ofListHashed ks = ofList ks) ∧
    (∀ (s : KeySet K) (ks : List K),
      s.eraseMany ks = ks.foldl erase s ∧ (s.eraseMany ks).anchor = s.anchor ∧
        (s.eraseMany ks).current = s.current) ∧
    (∀ s t : KeySet K,
      (s.sameKeys t = true ↔ ∀ k, k ∈ s.items ↔ k ∈ t.items) ∧
      (s.sameKeysHashed t = true ↔ ∀ k, k ∈ s.items ↔ k ∈ t.items) ∧
      ((Selection.keys s).same (.keys t) = true ↔ ∀ k, k ∈ s.items ↔ k ∈ t.items)) ∧
    (Equivalence fun s t : KeySet K => s.sameKeys t = true) ∧
    (∀ (s t : KeySet K) (anchor current : Option K), s.items.Perm t.items →
      (s.withRoles anchor current).sameKeys t = true) := by
  refine ⟨?_, ?_, ?_, ?_, ?_, equivalence_sameKeys, ?_⟩
  · intro o edits
    rw [items_run, o.items_keySet]
    exact ⟨rfl, nodup_foldl_onKeys o.nodup_keys edits⟩
  · intro s ks
    exact ⟨insertMany_eq_foldl s ks, rfl, rfl⟩
  · intro ks
    exact ofListHashed_eq_ofList ks
  · intro s ks
    exact ⟨eraseMany_eq_foldl s ks, rfl, rfl⟩
  · intro s t
    exact ⟨sameKeys_iff, sameKeysHashed_iff, sameKeys_iff⟩
  · intro s t anchor current h
    exact sameKeys_withRoles_of_perm h anchor current

end Listbox.KeySet
