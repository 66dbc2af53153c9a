import Listbox.Forest

set_option autoImplicit false

/-! # What pruning keeps, and what it asks

Pruning mixes two things: a predicate that remembers what it was asked is asked about one label after
another, and the answers decide which trees stay. Here they are taken apart.

`ask` puts a list of questions to a predicate. The questions of pruning are the labels that can be
asked about, in postorder (`prune_recording`), whatever the answers are.

`Forest.retain` keeps the trees that hold an accepted label. Pruning keeps what the answers say
should be retained (`prune_eq_retain`), and that is every accepted label and every label above one
(`mem_preorder_retain_iff`). What is above a label is read off `Forest.lineages`. -/

universe u v w

namespace Listbox

variable {α : Type u} {β : Type v} {σ : Type w}

/-! ## Asking one question after another -/

/-- The answers that a predicate gives to a list of questions, and its state after the last one. -/
def ask (keep : σ → α → Bool × σ) : σ → List α → List (α × Bool) × σ
  | s, [] => ([], s)
  | s, a :: as =>
    let answer := keep s a
    let later := ask keep answer.2 as
    ((a, answer.1) :: later.1, later.2)

/-- The predicate that answers as `keep` does and keeps a record of its answers. -/
def recording (keep : σ → α → Bool × σ) (s : σ × List (α × Bool)) (a : α) :
    Bool × σ × List (α × Bool) :=
  let answer := keep s.1 a
  (answer.1, answer.2, s.2 ++ [(a, answer.1)])

section

variable (keep : σ → α → Bool × σ) (s : σ)

theorem ask_append (as bs : List α) :
    ask keep s (as ++ bs) =
      ((ask keep s as).1 ++ (ask keep (ask keep s as).2 bs).1,
        (ask keep (ask keep s as).2 bs).2) := by
  induction as generalizing s with
  | nil => rfl
  | cons a as ih => simp only [List.cons_append, ask, ih]

@[simp] theorem map_fst_ask (as : List α) : (ask keep s as).1.map Prod.fst = as := by
  induction as generalizing s with
  | nil => rfl
  | cons a as ih => rw [ask, List.map_cons, ih]

end

namespace Forest

/-! ## Postorder -/

theorem postorder_map (h : α → β) (f : Forest α) : (f.map h).postorder = f.postorder.map h := by
  induction f with
  | nil => rfl
  | tree a cs rest ihc ihr => simp [map, postorder, ihc, ihr]

/-- Both orders visit the same labels. -/
theorem postorder_perm_preorder (f : Forest α) : f.postorder.Perm f.preorder := by
  induction f with
  | nil => exact .refl _
  | tree a cs rest ihc ihr =>
    calc (tree a cs rest).postorder
      _ = cs.postorder ++ a :: rest.postorder := rfl
      List.Perm _ (a :: (cs.postorder ++ rest.postorder)) := List.perm_middle
      List.Perm _ (a :: (cs.preorder ++ rest.preorder)) := (ihc.append ihr).cons a

/-! ## The questions of pruning -/

/-- The labels that pruning asks about, in the order of asking. -/
def questions (leafKind : α → Bool) (f : Forest α) : List α := f.postorder.filter leafKind

variable {leafKind : α → Bool} {pruneEmpty : Bool} {keep : σ → α → Bool × σ}

theorem questions_tree (leafKind : α → Bool) (a : α) (cs rest : Forest α) :
    (tree a cs rest).questions leafKind =
      cs.questions leafKind ++ ([a].filter leafKind ++ rest.questions leafKind) := by
  rw [questions, postorder, ← List.singleton_append, List.filter_append, List.filter_append]
  rfl

theorem questions_map (h : α → β) (leafKind : β → Bool) (f : Forest α) :
    (f.map h).questions leafKind = (f.questions fun a => leafKind (h a)).map h := by
  rw [questions, postorder_map, List.filter_map]
  rfl

/-- The one question that may be asked about the root of a tree. -/
theorem answer_snd (s : σ) (a : α) (unasked : Bool) :
    (if leafKind a then keep s a else (unasked, s)).2 = (ask keep s ([a].filter leafKind)).2 := by
  cases hleaf : leafKind a with
  | false => rw [List.filter_cons_of_neg (by simp [hleaf])]; rfl
  | true => rw [List.filter_cons_of_pos hleaf]; rfl

/-- Pruning leaves the predicate where its questions lead it. -/
theorem prune_snd (s : σ) (f : Forest α) :
    (f.prune leafKind pruneEmpty keep s).2 = (ask keep s (f.questions leafKind)).2 := by
  induction f generalizing s with
  | nil => rfl
  | tree a cs rest ihc ihr =>
    rw [questions_tree, ask_append, ask_append, ← answer_snd _ a (!pruneEmpty), ← ihc, ← ihr, prune,
      apply_ite Prod.snd, ite_self]

/-- **Every question once, in postorder.** Keeping a record changes neither what stays nor where the
predicate ends, and the record shows the questions in their order, with the answers given then. -/
theorem prune_recording (s : σ) (log : List (α × Bool)) (f : Forest α) :
    f.prune leafKind pruneEmpty (recording keep) (s, log) =
      ((f.prune leafKind pruneEmpty keep s).1, (f.prune leafKind pruneEmpty keep s).2,
        log ++ (ask keep s (f.questions leafKind)).1) := by
  induction f generalizing s log with
  | nil => simp [prune, questions, postorder, ask]
  | tree a cs rest ihc ihr =>
    have hbelow : (ask keep s (cs.questions leafKind)).2 =
        (cs.prune leafKind pruneEmpty keep s).2 := (prune_snd s cs).symm
    rw [questions_tree, ask_append, ask_append, prune, prune]
    simp only [ihc, hbelow]
    cases hleaf : leafKind a with
    | false =>
      simp only [Bool.false_eq_true, if_false, ihr, hleaf, List.filter_cons_of_neg,
        List.filter_nil, ask, List.nil_append, not_false_eq_true]
      split <;> simp
    | true =>
      simp only [if_true, recording, ihr, hleaf, List.filter_cons_of_pos, List.filter_nil, ask]
      split <;> simp

/-- A predicate that accepts every label keeps all of the forest, unless what is empty goes. -/
theorem prune_of_accepts (hkeep : ∀ s a, (keep s a).1 = true) (s : σ) (f : Forest α) :
    (f.prune leafKind false keep s).1 = f := by
  induction f generalizing s with
  | nil => rfl
  | tree a cs rest ihc ihr =>
    have hanswer : ∀ s', (if leafKind a then keep s' a else (!false, s')).1 = true := by
      intro s'
      split
      · exact hkeep s' a
      · rfl
    rw [prune]
    simp only [hanswer, Bool.true_or, if_true, ihc, ihr]

/-! ## What is retained -/

/-- The trees that hold a label with `p`, cut down in the same way. -/
def retain (p : α → Bool) : Forest α → Forest α
  | nil => nil
  | tree a cs rest =>
    if p a || !(cs.retain p).isEmpty then tree a (cs.retain p) (rest.retain p) else rest.retain p

/-- The answer about the root of a tree, if there was one. -/
theorem answer_fst {p : α → Bool} {s : σ} {a : α}
    (hasked : ∀ x ∈ (ask keep s ([a].filter leafKind)).1, p x.1 = x.2)
    (hother : leafKind a = false → p a = false) :
    (if leafKind a then keep s a else (!true, s)).1 = p a := by
  cases hleaf : leafKind a with
  | false => exact (hother hleaf).symm
  | true =>
    rw [List.filter_cons_of_pos hleaf] at hasked
    exact (hasked _ List.mem_cons_self).symm

/-- **Pruning retains what was accepted**, if `p` says which labels were: it repeats the answers
given, and holds of no label that is never asked about. -/
theorem prune_eq_retain {p : α → Bool} {s : σ} {f : Forest α}
    (hasked : ∀ x ∈ (ask keep s (f.questions leafKind)).1, p x.1 = x.2)
    (hother : ∀ a ∈ f.preorder, leafKind a = false → p a = false) :
    (f.prune leafKind true keep s).1 = f.retain p := by
  induction f generalizing s with
  | nil => rfl
  | tree a cs rest ihc ihr =>
    rw [questions_tree, ask_append, ask_append, ← prune_snd s cs, ← answer_snd _ a (!true)] at hasked
    simp only [List.mem_append] at hasked
    simp only [preorder, List.mem_cons, List.mem_append] at hother
    have hbelow := ihc (fun x hx => hasked x (.inl hx)) fun b hb => hother b (.inr (.inl hb))
    have hanswer := answer_fst (fun x hx => hasked x (.inr (.inl hx))) (hother a (.inl rfl))
    have hbeside := ihr (fun x hx => hasked x (.inr (.inr hx))) fun b hb => hother b (.inr (.inr hb))
    rw [prune, retain, ← hbelow, ← hbeside, ← hanswer, apply_ite Prod.fst]

theorem retain_map (h : α → β) (p : β → Bool) (f : Forest α) :
    (f.map h).retain p = (f.retain fun a => p (h a)).map h := by
  induction f with
  | nil => rfl
  | tree a cs rest ihc ihr =>
    have hempty : ((cs.retain fun a => p (h a)).map h).isEmpty =
        (cs.retain fun a => p (h a)).isEmpty := by
      cases cs.retain fun a => p (h a) <;> rfl
    rw [map, retain, retain, ihc, ihr, hempty]
    split <;> rfl

theorem preorder_retain_sublist (p : α → Bool) (f : Forest α) :
    (f.retain p).preorder.Sublist f.preorder := by
  induction f with
  | nil => exact .refl _
  | tree a cs rest ihc ihr =>
    rw [retain, preorder]
    split
    · exact (ihc.append ihr).cons_cons a
    · exact (ihr.trans (List.sublist_append_right ..)).cons a

/-! ## Lineages -/

/-- Every label in reading order, each with the labels above it, nearest first; `up` is above the
roots. -/
def lineages (up : List α) : Forest α → List (α × List α)
  | nil => []
  | tree a cs rest => (a, up) :: (cs.lineages (a :: up) ++ rest.lineages up)

theorem map_fst_lineages (f : Forest α) (up : List α) :
    (f.lineages up).map Prod.fst = f.preorder := by
  induction f generalizing up with
  | nil => rfl
  | tree a cs rest ihc ihr => simp [lineages, preorder, ihc, ihr]

/-- What is above the roots is above everything. -/
theorem lineages_append (f : Forest α) (up up' : List α) :
    f.lineages (up ++ up') = (f.lineages up).map fun x => (x.1, x.2 ++ up') := by
  induction f generalizing up with
  | nil => rfl
  | tree a cs rest ihc ihr =>
    have hc := ihc (a :: up)
    rw [List.cons_append] at hc
    simp [lineages, hc, ihr]

/-- A label of the first tree is its root or has the root above all others; the labels of the trees
after it have the same labels above them there. -/
theorem mem_lineages_tree_iff {a d : α} {cs rest : Forest α} {up : List α} :
    (d, up) ∈ (tree a cs rest).lineages [] ↔
      (d = a ∧ up = []) ∨ (∃ up', (d, up') ∈ cs.lineages [] ∧ up = up' ++ [a]) ∨
        (d, up) ∈ rest.lineages [] := by
  have hbelow : cs.lineages [a] = (cs.lineages []).map fun x => (x.1, x.2 ++ [a]) :=
    lineages_append cs [] [a]
  rw [lineages, hbelow, List.mem_cons, List.mem_append, List.mem_map, Prod.mk.injEq]
  refine or_congr_right (or_congr_left ⟨?_, ?_⟩)
  · rintro ⟨⟨d', up'⟩, hd, heq⟩
    cases heq
    exact ⟨up', hd, rfl⟩
  · rintro ⟨up', hd, rfl⟩
    exact ⟨(d, up'), hd, rfl⟩

theorem isEmpty_eq_false_iff {f : Forest α} : f.isEmpty = false ↔ ∃ a, a ∈ f.preorder := by
  cases f with
  | nil => simp [isEmpty, preorder]
  | tree a cs rest => exact ⟨fun _ => ⟨a, List.mem_cons_self⟩, fun _ => rfl⟩

/-- A label with `p` is at `b` or below it. -/
def Spares (p : α → Bool) (f : Forest α) (b : α) : Prop :=
  ∃ d up, (d, up) ∈ f.lineages [] ∧ p d = true ∧ b ∈ d :: up

/-- The root of the first tree is spared for its own sake or for that of a label below it. -/
theorem spares_tree_iff {p : α → Bool} {a b : α} {cs rest : Forest α} :
    (tree a cs rest).Spares p b ↔
      (b = a ∧ (p a = true ∨ ∃ b', cs.Spares p b')) ∨ cs.Spares p b ∨ rest.Spares p b := by
  constructor
  · rintro ⟨d, up, hd, hp, hb⟩
    rcases mem_lineages_tree_iff.1 hd with ⟨rfl, rfl⟩ | ⟨up', hbelow, rfl⟩ | hbeside
    · exact .inl ⟨List.mem_singleton.1 hb, .inl hp⟩
    · rw [← List.cons_append, List.mem_append, List.mem_singleton] at hb
      rcases hb with hb | rfl
      · exact .inr (.inl ⟨d, up', hbelow, hp, hb⟩)
      · exact .inl ⟨rfl, .inr ⟨d, d, up', hbelow, hp, List.mem_cons_self⟩⟩
    · exact .inr (.inr ⟨d, up, hbeside, hp, hb⟩)
  · rintro (⟨rfl, hp | ⟨b', d, up, hd, hp, -⟩⟩ | ⟨d, up, hd, hp, hb⟩ | ⟨d, up, hd, hp, hb⟩)
    · exact ⟨b, [], mem_lineages_tree_iff.2 (.inl ⟨rfl, rfl⟩), hp, List.mem_cons_self⟩
    · exact ⟨d, up ++ [b], mem_lineages_tree_iff.2 (.inr (.inl ⟨up, hd, rfl⟩)), hp, by simp⟩
    · exact ⟨d, up ++ [a], mem_lineages_tree_iff.2 (.inr (.inl ⟨up, hd, rfl⟩)), hp,
        List.mem_append_left [a] hb⟩
    · exact ⟨d, up, mem_lineages_tree_iff.2 (.inr (.inr hd)), hp, hb⟩

/-- **What is retained.** A label stays exactly if it has `p` or is above a label that has. -/
theorem mem_preorder_retain_iff {p : α → Bool} {f : Forest α} {b : α} :
    b ∈ (f.retain p).preorder ↔ f.Spares p b := by
  induction f generalizing b with
  | nil => simp [retain, preorder, Spares, lineages]
  | tree a cs rest ihc ihr =>
    rw [spares_tree_iff, ← ihc, ← ihr]
    simp only [← ihc, ← isEmpty_eq_false_iff]
    rw [retain]
    split
    · next stays =>
      rw [Bool.or_eq_true, Bool.not_eq_true'] at stays
      rw [preorder, List.mem_cons, List.mem_append, and_iff_left stays]
    · next goes =>
      rw [Bool.or_eq_true, Bool.not_eq_true'] at goes
      have hnone : b ∉ (cs.retain p).preorder := fun hb =>
        goes (.inr (isEmpty_eq_false_iff.2 ⟨b, hb⟩))
      rw [iff_false_intro goes, iff_false_intro hnone, and_false, false_or, false_or]

end Forest

end Listbox
