import Listbox.Proofs.Families
import Listbox.Proofs.ReadingOrder

set_option autoImplicit false

/-! # The scope of a key

Around a row with a section above it, the first and the last key are those of the nearest such
section: its first child, and the end that last children lead to from it. A section heads the forest
of the rows below it (`exists_heads`), and these two keys are the ends of that forest in reading
order. So what lies between them is what stands below the section, at any depth
(`scope_spans_section`). -/

universe u v

namespace Listbox.Collection

variable {K : Type u} {T : Type v} [DecidableEq K] [Hashable K]
variable {c : Collection K T} {n s : Node K T} {k z : K} {cs : Forest (Entry K T)}

/-! ## The nearest section -/

/-- The section `s` is above `k`, and no section above `k` is nearer. -/
def NearestGroup (c : Collection K T) (k : K) (s : Node K T) : Prop :=
  ∃ outer inner, c.ancestors k = outer ++ s :: inner ∧ s.isGroup = true ∧
    ∀ n ∈ inner, n.isGroup = false

/-- The nearest section is the last one among the ancestors, which come outermost first. -/
theorem enclosingGroup?_eq (c : Collection K T) (k : K) :
    c.enclosingGroup? k = (c.ancestors k).reverse.find? (·.isGroup) := by
  unfold enclosingGroup? ancestors
  cases c.position? k with
  | none => rfl
  | some i => rw [List.reverse_reverse]

theorem enclosingGroup?_eq_some_iff : c.enclosingGroup? k = some s ↔ c.NearestGroup k s := by
  rw [enclosingGroup?_eq, List.find?_eq_some_iff_append]
  constructor
  · intro h
    obtain ⟨hs, inner, outer, hsplit, hinner⟩ := h
    refine ⟨outer.reverse, inner.reverse, ?_, hs, fun n hn => ?_⟩
    · rw [← List.reverse_reverse (c.ancestors k), hsplit]
      simp
    · simpa using hinner n (List.mem_reverse.1 hn)
  · intro h
    obtain ⟨outer, inner, hsplit, hs, hinner⟩ := h
    refine ⟨hs, inner.reverse, outer.reverse, ?_, fun n hn => ?_⟩
    · rw [hsplit]
      simp
    · rw [hinner n (List.mem_reverse.1 hn)]
      rfl

theorem enclosingGroup?_eq_none_iff :
    c.enclosingGroup? k = none ↔ ∀ a ∈ c.ancestors k, a.isGroup = false := by
  rw [enclosingGroup?_eq, List.find?_eq_none]
  simp

/-! ## The end of a forest -/

/-- Where last children lead to is the last that following them visits. -/
theorem EndsIn.getLast?_trail (h : c.EndsIn k z) {ns : List (Node K T)}
    (htrail : Trail (c.follow (·.lastChild)) (c.get? k) ns) : ns.getLast?.map (·.key) = some z := by
  induction h generalizing ns with
  | @leaf k n hn hlast =>
    rw [hn] at htrail
    cases htrail with
    | go hrest =>
      rw [follow, hlast, Option.bind_none] at hrest
      cases hrest
      exact congrArg some (get?_eq_some_iff.1 hn).2
  | @descend k k' z n hn hlast _ ih =>
    rw [hn] at htrail
    cases htrail with
    | @go _ ms hrest =>
      rw [follow, hlast, Option.bind_some] at hrest
      have hend := ih hrest
      cases ms with
      | nil => cases hend
      | cons m ms => exact hend

/-- The last descendant of a row with children stands at the end of the forest below it. -/
theorem Heads.lastDescendant? (h : c.Heads s cs) (hcs : cs ≠ .nil) :
    ∃ z, (c.lastDescendant? s).map (·.key) = some z ∧ c.keys[s.index + cs.size]? = some z := by
  obtain ⟨e, he⟩ : ∃ e, cs.last? = some e := by
    cases cs with
    | nil => exact absurd rfl hcs
    | tree e cs' rest => exact ⟨_, Forest.last?_tree e cs' rest⟩
  obtain ⟨z, hends, hat⟩ :=
    exists_endsIn_last h.below (j := s.index + cs.size) (k := e.key) (by omega) (by rw [he]; rfl)
  obtain ⟨ns, htrail, hlast⟩ := c.exists_trail_lastDescendant? s
  rw [follow, h.lastChild, he, Option.map_some, Option.bind_some] at htrail
  rw [hlast]
  exact ⟨z, hends.getLast?_trail htrail, hat⟩

/-! ## The scope -/

theorem firstKey?_eq_head?_keys (c : Collection K T) : c.firstKey? = c.keys.head? := by
  rw [firstKey?, map_key_at?, List.head?_eq_getElem?]

theorem lastKey?_eq_getLast?_keys (c : Collection K T) : c.lastKey? = c.keys.getLast? := by
  rw [lastKey?_eq, List.getLast?_eq_getElem?, length_keys]

/-- Exactly the rows below `s`, at any depth, stand from the key `a` to the key `z`. -/
def Bounds (c : Collection K T) (s : Node K T) (a z : K) : Prop :=
  ∃ i j, c.keys[i]? = some a ∧ c.keys[j]? = some z ∧
    ∀ l d, c.at? l = some d → (i ≤ l ∧ l ≤ j ↔ s ∈ c.ancestors d.key)

/-- The rows below a row that has some start with its first child and end with its last
descendant. -/
theorem Heads.bounds (h : c.Heads s cs) (hcs : cs ≠ .nil)
    (hspans : ∀ d ∈ c.toList,
      s ∈ c.ancestors d.key ↔ s.index < d.index ∧ d.index ≤ s.index + cs.size) :
    ∃ a z, s.firstChild = some a ∧ (c.lastDescendant? s).map (·.key) = some z ∧
      c.Bounds s a z := by
  obtain ⟨z, hlast, hat⟩ := h.lastDescendant? hcs
  obtain ⟨a, hfirst, hstart⟩ : ∃ a, s.firstChild = some a ∧ c.keys[s.index + 1]? = some a := by
    rw [h.firstChild, keys_getElem?_of_hosts h.below]
    cases cs with
    | nil => exact absurd rfl hcs
    | tree e cs' rest => exact ⟨e.key, rfl, rfl⟩
  refine ⟨a, z, hfirst, hlast, s.index + 1, s.index + cs.size, hstart, hat, fun l d hd => ?_⟩
  obtain ⟨hmem, rfl⟩ := at?_eq_some_iff.1 hd
  rw [hspans d hmem]
  omega

/-- **Around a row below a section** the scope is what stands below the nearest one. -/
theorem scope_of_nearestGroup (h : c.NearestGroup k s) :
    ∃ a z, c.firstKeyAround? (some k) false = some a ∧ c.lastKeyAround? (some k) false = some z ∧
      c.Bounds s a z := by
  have hgroup := enclosingGroup?_eq_some_iff.2 h
  obtain ⟨outer, inner, hsplit, -⟩ := h
  have habove : s ∈ c.ancestors k := by simp [hsplit]
  obtain ⟨n, hn⟩ : ∃ n, c.get? k = some n := by
    rw [← Option.isSome_iff_exists, ← contains_eq_isSome_get?, ← Bool.not_eq_false]
    intro hunknown
    rw [ancestors_eq_nil hunknown] at habove
    cases habove
  obtain ⟨hmem, rfl⟩ := get?_eq_some_iff.1 hn
  have hs : c.get? s.key = some s :=
    get?_eq_some_iff.2 ⟨(lineage_ancestors hn).rows s habove, rfl⟩
  obtain ⟨cs, hheads, hspans⟩ := exists_heads hs
  have hcs : cs ≠ .nil := by
    rintro rfl
    have := (hspans n hmem).1 habove
    simp only [Forest.size] at this
    omega
  obtain ⟨a, z, hfirst, hlast, hbounds⟩ := hheads.bounds hcs hspans
  refine ⟨a, z, ?_, ?_, hbounds⟩
  · simp only [firstKeyAround?, Option.bind_some, hgroup, hfirst]
  · simp only [lastKeyAround?, Option.bind_some, hgroup, hlast]

/-- **Without a section** the scope is the whole collection. -/
theorem scope_of_no_group {start : Option K} {global : Bool}
    (h : global = true ∨ start.bind c.enclosingGroup? = none) :
    c.firstKeyAround? start global = c.keys.head? ∧
      c.lastKeyAround? start global = c.keys.getLast? := by
  rw [← firstKey?_eq_head?_keys, ← lastKey?_eq_getLast?_keys]
  unfold firstKeyAround? lastKeyAround?
  rcases h with hglobal | hnone
  · rw [hglobal]
    cases start.bind c.enclosingGroup? <;> exact ⟨rfl, rfl⟩
  · rw [hnone]
    exact ⟨rfl, rfl⟩

/-- **The scope of a key.** Around a key with a section above it the first and the last key are the
ends of what stands below the nearest such section, at any depth. In every other case, with the scope
set to everything, without a key, and for a key that is unknown or has no section above it, they are
the first and the last key of the collection. The walks that look for the section and for the last
key stop. -/
theorem scope_spans_section (c : Collection K T) :
    (∀ k s, c.NearestGroup k s →
      ∃ a z, c.firstKeyAround? (some k) false = some a ∧
        c.lastKeyAround? (some k) false = some z ∧ c.Bounds s a z) ∧
    (∀ start global,
      (global = true ∨ start = none ∨ ∃ k, start = some k ∧
        (c.contains k = false ∨ ∀ a ∈ c.ancestors k, a.isGroup = false)) →
      c.firstKeyAround? start global = c.keys.head? ∧
        c.lastKeyAround? start global = c.keys.getLast?) ∧
    (∀ k, ∃ ns, Trail (c.follow (·.parent)) (c.parent? k) ns ∧
      c.enclosingGroup? k = ns.find? (·.isGroup)) ∧
    ∀ n, ∃ ns, Trail (c.follow (·.lastChild)) (c.follow (·.lastChild) n) ns ∧
      c.lastDescendant? n = ns.getLast? := by
  refine ⟨fun k s h => scope_of_nearestGroup h, fun start global h => scope_of_no_group ?_,
    fun k => ⟨_, trail_ancestors c k, enclosingGroup?_eq c k⟩, exists_trail_lastDescendant? c⟩
  rcases h with hglobal | rfl | ⟨k, rfl, hk⟩
  · exact .inl hglobal
  · exact .inr rfl
  · refine .inr (enclosingGroup?_eq_none_iff.2 ?_)
    rcases hk with hunknown | hnone
    · rw [ancestors_eq_nil hunknown]
      simp
    · exact hnone

/-- The section is the scope of the row two levels below it, and with the scope set to everything
that row is among all others. -/
theorem scope_spans_section_stairs :
    ∃ c s a z, ofForest stairs = .ok c ∧ c.NearestGroup 3 s ∧
      c.firstKeyAround? (some 3) false = some a ∧ c.lastKeyAround? (some 3) false = some z ∧
      c.Bounds s a z ∧
      c.firstKeyAround? (some 3) true = some 1 ∧ c.lastKeyAround? (some 3) true = some 4 := by
  obtain ⟨c, hc⟩ := exists_ofForest_ok_iff.2 (show stairs.keys.Nodup by decide)
  let russet := ((stairs.placed 0 none none 0).lineages []).get ⟨2, by decide⟩
  have hrusset : (russet.1, russet.2) ∈ c.forest.lineages [] := by
    rw [forest_ofForest hc]
    exact List.get_mem ..
  have hup : c.ancestors 3 = russet.2.reverse := ancestors_of_mem_lineages hrusset
  have hnearest : c.NearestGroup 3 (russet.2.reverse.get ⟨0, by decide⟩) :=
    ⟨[], [russet.2.reverse.get ⟨1, by decide⟩], hup, rfl, by decide⟩
  obtain ⟨hscope, hall, -⟩ := scope_spans_section c
  obtain ⟨a, z, hfirst, hlast, hbounds⟩ := hscope 3 _ hnearest
  obtain ⟨hfirstAll, hlastAll⟩ := hall (some 3) true (.inl rfl)
  rw [keys_ofForest hc] at hfirstAll hlastAll
  exact ⟨c, _, a, z, hc, hnearest, hfirst, hlast, hbounds, hfirstAll, hlastAll⟩

end Listbox.Collection
