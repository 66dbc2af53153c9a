import Listbox.Proofs.Recovery

set_option autoImplicit false

/-! # Appending is building again

A collection that grows page by page is built from scratch for every page, from the forest that its
links give back and the trees of the page. So nothing can be told from the result about how it came
to be: it is the collection of all trees in order, or the key that building them refuses
(`append_rebuilds`). -/

universe u v

namespace Listbox

namespace Forest

variable {α : Type u}

/-- The trees of several forests, one forest after the other. -/
def join : List (Forest α) → Forest α
  | [] => nil
  | f :: fs => f ++ join fs

end Forest

variable {K : Type u} {T : Type v}

theorem Forest.keys_append (f g : Forest (Entry K T)) : (f ++ g).keys = f.keys ++ g.keys := by
  simp [Forest.keys]

namespace Collection

variable [DecidableEq K] [Hashable K]
variable {c d : Collection K T} {f : Forest (Entry K T)} {e : BuildError K}

/-- A key that is refused is refused whatever comes after it. -/
theorem ofForest_append_of_error (h : ofForest f = .error e) (g : Forest (Entry K T)) :
    ofForest (f ++ g) = .error e := by
  rw [ofForest_eq_error_iff] at h ⊢
  rw [Forest.keys_append, numberKeys_append, h]
  rfl

theorem ofForest_entries (c : Collection K T) : ofForest c.entries = .ok c := by
  obtain ⟨f, hf⟩ := c.exists_ofForest
  rw [entries_ofForest hf, hf]

@[simp] theorem append_nil (c : Collection K T) : c.append .nil = .ok c := by
  rw [append, Forest.append_nil, ofForest_entries]

theorem entries_append {more : Forest (Entry K T)} (h : c.append more = .ok d) :
    d.entries = c.entries ++ more :=
  entries_ofForest h

theorem keys_append {more : Forest (Entry K T)} (h : c.append more = .ok d) :
    d.keys = c.keys ++ more.keys := by
  rw [keys_ofForest h, Forest.keys_append, ← keys_ofForest c.ofForest_entries]

/-- Two pages are appended one after the other exactly as they are together. -/
theorem append_append (c : Collection K T) (p q : Forest (Entry K T)) :
    ((c.append p).bind fun d => d.append q) = c.append (p ++ q) := by
  cases hp : c.append p with
  | ok d =>
    change d.append q = _
    rw [append, entries_append hp, Forest.append_assoc, append]
  | error e =>
    change Except.error e = _
    rw [append, ← Forest.append_assoc, ofForest_append_of_error hp]

/-- Pages are appended one after the other exactly as they are all together. -/
theorem foldlM_append (c : Collection K T) (pages : List (Forest (Entry K T))) :
    pages.foldlM append c = c.append (.join pages) := by
  induction pages generalizing c with
  | nil => exact c.append_nil.symm
  | cons p pages ih =>
    calc (p :: pages).foldlM append c
      _ = (c.append p).bind fun d => pages.foldlM append d := rfl
      _ = (c.append p).bind fun d => d.append (.join pages) := by simp only [ih]
      _ = c.append (p ++ .join pages) := append_append c p _

/-- **Appending is building again.** What comes out of appending to the collection of a forest is
what comes out of building the forest with the new trees after it: the same collection, or the same
key refused. Appending nothing changes nothing, and appending page by page ends as appending all
pages at once. -/
theorem append_rebuilds (h : ofForest f = .ok c) :
    (∀ more, c.append more = ofForest (f ++ more)) ∧
    c.append .nil = .ok c ∧
    ∀ pages : List (Forest (Entry K T)), pages.foldlM append c = c.append (.join pages) := by
  refine ⟨fun more => ?_, append_nil c, foldlM_append c⟩
  rw [append, entries_ofForest h]

/-- A row, and a section without rows. -/
def openEnded : Forest (Entry Nat Unit) :=
  .tree (.item 1 "apple" ()) .nil (.tree (.group 2 "bread") .nil .nil)

/-- The empty section stays when a row is appended, and a row that is there already is refused. -/
theorem append_rebuilds_openEnded :
    ∃ c, ofForest openEnded = .ok c ∧
      (∃ d, c.append (.leaf (.item 3 "pear" ())) = .ok d ∧ d.keys = [1, 2, 3]) ∧
      c.append (.leaf (.item 1 "apple" ())) = .error (.duplicateKey 1) := by
  obtain ⟨c, hc⟩ := exists_ofForest_ok_iff.2 (show openEnded.keys.Nodup by decide)
  have happend := (append_rebuilds hc).1
  obtain ⟨d, hd⟩ := exists_ofForest_ok_iff.2
    (show (openEnded ++ .leaf (Entry.item 3 "pear" ())).keys.Nodup by decide)
  have hthree : c.append (.leaf (.item 3 "pear" ())) = .ok d := (happend _).trans hd
  refine ⟨c, hc, ⟨d, hthree, ?_⟩, ?_⟩
  · rw [keys_append hthree, keys_ofForest hc]
    rfl
  · rw [happend, ofForest_eq_error_iff, numberKeys_eq_error_iff]
    exact ⟨[1, 2], [], rfl, by decide, fun k _ => Std.HashMap.contains_empty, .inl (by decide)⟩

end Collection

end Listbox
