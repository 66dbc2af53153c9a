import Listbox.Proofs.Recovery
import Mathlib.Data.List.Nodup

set_option autoImplicit false

/-! # Filtering a collection

`Collection.Filters` says what filtering comes to, whatever the predicate remembers between its
questions: which rows it is asked about and in which order, which rows stay, and what they keep of
what they were. The rows that stay are those of the forest cut down to the accepted items, built
afresh; their keys are among the old ones, so this cannot fail, and the empty collection that stands
in for a failure is never given out (`filterWith_filters`). -/

universe u v w

namespace Listbox

variable {K : Type u} {T : Type v} {σ : Type w}

/-- What a row is, how deep it stands, and below which row. -/
def Node.outline (n : Node K T) : Entry K T × Nat × Option K := (n.toEntry, n.level, n.parent)

/-- A row whose tree stays keeps its depth and its parent, and rows stay in order. -/
theorem Forest.map_outline_retain_sublist (p : Entry K T → Bool) (f : Forest (Entry K T))
    (level : Nat) (parent prev prev' : Option K) (start start' : Nat) :
    (((f.retain p).layOut level parent prev start).map Node.outline).Sublist
      ((f.layOut level parent prev' start').map Node.outline) := by
  induction f generalizing level parent prev prev' start start' with
  | nil => exact .refl _
  | tree e cs rest ihc ihr =>
    rw [retain, layOut_tree, List.map_cons, List.map_append]
    split
    · rw [layOut_tree, List.map_cons, List.map_append]
      exact ((ihc ..).append (ihr ..)).cons_cons _
    · exact ((ihr ..).trans (List.sublist_append_right ..)).cons _

/-- The keys of the rows that were accepted. -/
def acceptedKeys (log : List (Node K T × Bool)) : List K := (log.filter (·.2)).map (·.1.key)

namespace Collection

variable [DecidableEq K] [Hashable K]

/-- With the answers in `log`, filtering turns the collection `c` of the forest `f` into `r`. -/
structure Filters (f : Forest (Entry K T)) (c r : Collection K T) (log : List (Node K T × Bool)) :
    Prop where
  /-- The items are asked about, those below a row before the row, and sections never. -/
  asked : log.map (·.1.toEntry) = f.postorder.filter (·.isItem)
  /-- Every item of the collection is asked about once. -/
  once : (log.map Prod.fst).Perm (c.toList.filter (·.isItem))
  /-- The result is the forest of the trees with an accepted item, built afresh. -/
  built : ofForest (f.retain fun e => (acceptedKeys log).contains e.key) = .ok r
  /-- A row stays exactly if it was accepted itself or is above one that was. -/
  stays : ∀ n ∈ c.toList,
    r.contains n.key ↔ (n, true) ∈ log ∨ ∃ d, (d, true) ∈ log ∧ n ∈ c.ancestors d.key
  /-- Rows that stay do so in order, with their entry, their depth and their parent. -/
  rows : (r.toList.map Node.outline).Sublist (c.toList.map Node.outline)

/-- The answers that filtering gets, in the order of the questions. -/
def answers (c : Collection K T) (keep : σ → Node K T → Bool × σ) (s : σ) :
    List (Node K T × Bool) :=
  (ask keep s (c.forest.questions (·.isItem))).1

variable {c : Collection K T} {f : Forest (Entry K T)} {n m : Node K T} {b b' : Bool}
variable {keep : σ → Node K T → Bool × σ} {s : σ}

/-! ## The questions -/

theorem filterWith_recording (c : Collection K T) (keep : σ → Node K T → Bool × σ) (s : σ) :
    c.filterWith (recording keep) (s, []) =
      ((c.filterWith keep s).1, (c.filterWith keep s).2, c.answers keep s) := by
  simp only [filterWith, subforest, Forest.prune_recording, List.nil_append, answers]

theorem map_fst_answers (c : Collection K T) (keep : σ → Node K T → Bool × σ) (s : σ) :
    (c.answers keep s).map Prod.fst = c.forest.questions (·.isItem) :=
  map_fst_ask ..

/-- Filtering is asking, one question after the other. -/
theorem ask_answers (c : Collection K T) (keep : σ → Node K T → Bool × σ) (s : σ) :
    ask keep s ((c.answers keep s).map Prod.fst) = (c.answers keep s, (c.filterWith keep s).2) := by
  rw [map_fst_answers, filterWith, subforest, Forest.prune_snd]
  rfl

theorem perm_answers (c : Collection K T) (keep : σ → Node K T → Bool × σ) (s : σ) :
    ((c.answers keep s).map Prod.fst).Perm (c.toList.filter (·.isItem)) := by
  rw [map_fst_answers, ← preorder_forest]
  exact (Forest.postorder_perm_preorder c.forest).filter _

theorem mem_of_mem_answers (h : (n, b) ∈ c.answers keep s) : n ∈ c.toList ∧ n.isItem = true :=
  List.mem_filter.1 ((c.perm_answers keep s).mem_iff.1 (List.mem_map_of_mem h))

/-! ## The answers -/

/-- No row is asked about twice, so no row gets two answers. -/
theorem answer_unique (h : (n, b) ∈ c.answers keep s) (h' : (n, b') ∈ c.answers keep s) :
    b = b' := by
  have hnodup : ((c.answers keep s).map Prod.fst).Nodup :=
    (c.perm_answers keep s).nodup_iff.2 (c.nodup_keys.of_map.filter _)
  exact (Prod.mk.inj (List.inj_on_of_nodup_map hnodup h h' rfl)).2

theorem contains_acceptedKeys_iff (hn : n ∈ c.toList) :
    (acceptedKeys (c.answers keep s)).contains n.key = true ↔ (n, true) ∈ c.answers keep s := by
  rw [List.contains_iff_mem, acceptedKeys, List.mem_map]
  constructor
  · rintro ⟨⟨m, b⟩, hm, hkey⟩
    obtain ⟨hm, rfl⟩ := List.mem_filter.1 hm
    rwa [← eq_of_key_eq (mem_of_mem_answers hm).1 hn hkey]
  · exact fun h => ⟨(n, true), List.mem_filter.2 ⟨h, rfl⟩, rfl⟩

/-- What pruning keeps can be told from the keys that were accepted. -/
theorem prune_forest (c : Collection K T) (keep : σ → Node K T → Bool × σ) (s : σ) :
    (c.forest.prune (·.isItem) true keep s).1 =
      c.forest.retain fun n => (acceptedKeys (c.answers keep s)).contains n.key := by
  refine Forest.prune_eq_retain ?_ ?_
  · rintro ⟨n, b⟩ h
    have hn := (mem_of_mem_answers h).1
    rw [Bool.eq_iff_iff, contains_acceptedKeys_iff hn]
    exact ⟨fun ht => answer_unique h ht, fun hb => hb ▸ h⟩
  · intro n hn hgroup
    rw [preorder_forest] at hn
    rw [← Bool.not_eq_true, contains_acceptedKeys_iff hn]
    exact fun h => Bool.eq_false_iff.1 hgroup (mem_of_mem_answers h).2

/-! ## The rows that stay -/

theorem subforest_eq_retain (h : ofForest f = .ok c) (keep : σ → Node K T → Bool × σ) (s : σ) :
    (c.subforest true keep s).1 =
      f.retain fun e => (acceptedKeys (c.answers keep s)).contains e.key := by
  rw [subforest, prune_forest, ← map_toEntry_forest h, Forest.retain_map]

/-- **Filtering cannot fail.** The rows that stay have distinct keys, since they had them before. -/
theorem ofForest_retain (h : ofForest f = .ok c) (keep : σ → Node K T → Bool × σ) (s : σ) :
    ofForest (f.retain fun e => (acceptedKeys (c.answers keep s)).contains e.key) =
      .ok (c.filterWith keep s).1 := by
  have hnodup : (f.retain fun e => (acceptedKeys (c.answers keep s)).contains e.key).keys.Nodup :=
    (exists_ofForest_ok_iff.1 ⟨c, h⟩).sublist ((Forest.preorder_retain_sublist _ f).map _)
  obtain ⟨r, hr⟩ := exists_ofForest_ok_iff.2 hnodup
  rw [filterWith, subforest_eq_retain h, hr]
  rfl

theorem keys_filterWith (c : Collection K T) (keep : σ → Node K T → Bool × σ) (s : σ) :
    (c.filterWith keep s).1.keys =
      (c.forest.retain fun n => (acceptedKeys (c.answers keep s)).contains n.key).preorder.map
        (·.key) := by
  obtain ⟨f, hf⟩ := c.exists_ofForest
  rw [keys_ofForest (ofForest_retain hf keep s), Forest.keys, ← map_toEntry_forest hf,
    Forest.retain_map, Forest.preorder_map, List.map_map]
  rfl

/-- A key is left exactly if its row is. -/
theorem key_mem_retain_iff {q : Node K T → Bool} (hn : n ∈ c.toList) :
    n.key ∈ (c.forest.retain q).preorder.map (·.key) ↔ n ∈ (c.forest.retain q).preorder := by
  rw [List.mem_map]
  constructor
  · rintro ⟨m, hm, hkey⟩
    have hmem : m ∈ c.toList := by
      rw [← preorder_forest]
      exact (Forest.preorder_retain_sublist _ c.forest).subset hm
    rwa [← eq_of_key_eq hmem hn hkey]
  · exact fun h => ⟨n, h, rfl⟩

theorem contains_filterWith_iff_mem_retain (hn : n ∈ c.toList) :
    (c.filterWith keep s).1.contains n.key ↔
      n ∈ (c.forest.retain fun m =>
        (acceptedKeys (c.answers keep s)).contains m.key).preorder := by
  rw [contains_iff_mem_keys, keys_filterWith, key_mem_retain_iff hn]

/-- The rows that stay are those accepted and those above them. -/
theorem contains_filterWith_iff (hn : n ∈ c.toList) :
    (c.filterWith keep s).1.contains n.key ↔
      (n, true) ∈ c.answers keep s ∨ ∃ d, (d, true) ∈ c.answers keep s ∧ n ∈ c.ancestors d.key := by
  rw [contains_filterWith_iff_mem_retain hn, Forest.mem_preorder_retain_iff, spares_forest_iff hn,
    contains_acceptedKeys_iff hn]
  refine or_congr_right ⟨?_, ?_⟩
  · rintro ⟨d, hd, hyes, hup⟩
    exact ⟨d, (contains_acceptedKeys_iff hd).1 hyes, hup⟩
  · rintro ⟨d, hyes, hup⟩
    have hd := (mem_of_mem_answers hyes).1
    exact ⟨d, hd, (contains_acceptedKeys_iff hd).2 hyes, hup⟩

/-- **Filtering.** Whatever the predicate remembers, a record of its answers changes nothing; the
answers are those it gives to the questions asked one after the other; and what filtering does is
what `Filters` says. -/
theorem filterWith_filters (h : ofForest f = .ok c) (keep : σ → Node K T → Bool × σ) (s : σ) :
    ∃ log,
      c.filterWith (recording keep) (s, []) =
        ((c.filterWith keep s).1, (c.filterWith keep s).2, log) ∧
      ask keep s (log.map Prod.fst) = (log, (c.filterWith keep s).2) ∧
      Filters f c (c.filterWith keep s).1 log := by
  have hbuilt := ofForest_retain h keep s
  refine ⟨c.answers keep s, filterWith_recording c keep s, ask_answers c keep s, ?_⟩
  constructor
  case asked =>
    calc (c.answers keep s).map (·.1.toEntry)
      _ = ((c.answers keep s).map Prod.fst).map Node.toEntry := by rw [List.map_map]; rfl
      _ = (c.forest.questions (·.isItem)).map Node.toEntry := by rw [map_fst_answers]
      _ = (c.forest.map Node.toEntry).questions (·.isItem) := (Forest.questions_map ..).symm
      _ = f.postorder.filter (·.isItem) := by rw [map_toEntry_forest h]; rfl
  case once => exact perm_answers c keep s
  case built => exact hbuilt
  case stays => exact fun n hn => contains_filterWith_iff hn
  case rows =>
    rw [toList_ofForest hbuilt, toList_ofForest h]
    exact Forest.map_outline_retain_sublist ..

/-- A section over two rows, the second with a row below it, and a section over one row. -/
def shelves : Forest (Entry Nat Unit) :=
  .tree (.group 1 "fruit")
    (.tree (.item 2 "apple" ()) .nil
      (.tree (.item 3 "pear" ()) (.leaf (.item 4 "quince" ())) .nil))
    (.tree (.group 5 "bread") (.leaf (.item 6 "rye" ())) .nil)

/-- A predicate that accepts the second row it is asked about keeps the row below the second row,
since that is asked about before, and what is above it. -/
theorem filterWith_filters_shelves :
    ∃ c, ofForest shelves = .ok c ∧
      (c.filterWith (fun calls _ => (calls == 1, calls + 1)) 0).1.keys = [1, 3, 4] := by
  obtain ⟨c, hc⟩ := exists_ofForest_ok_iff.2 (show shelves.keys.Nodup by decide)
  obtain ⟨log, -, hask, hfilters⟩ := filterWith_filters hc (fun calls _ => (calls == 1, calls + 1)) 0
  refine ⟨c, hc, ?_⟩
  have hasked : (log.map Prod.fst).map Node.toEntry =
      [.item 2 "apple" (), .item 4 "quince" (), .item 3 "pear" (), .item 6 "rye" ()] := by
    rw [List.map_map]
    exact hfilters.asked
  generalize log.map Prod.fst = rows at hask hasked
  obtain ⟨n₂, _, rfl, -, hasked⟩ := List.map_eq_cons_iff.1 hasked
  obtain ⟨n₄, _, rfl, h₄, hasked⟩ := List.map_eq_cons_iff.1 hasked
  obtain ⟨n₃, _, rfl, -, hasked⟩ := List.map_eq_cons_iff.1 hasked
  obtain ⟨n₆, _, rfl, -, hasked⟩ := List.map_eq_cons_iff.1 hasked
  obtain rfl := List.map_eq_nil_iff.1 hasked
  have hlog : [(n₂, false), (n₄, true), (n₃, false), (n₆, false)] = log := congrArg Prod.fst hask
  have haccepted : acceptedKeys log = [4] := by
    rw [← hlog]
    exact congrArg (fun e => [e.key]) h₄
  rw [keys_ofForest hfilters.built, haccepted]
  rfl

end Collection

end Listbox
