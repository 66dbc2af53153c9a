import Mathlib.Data.List.Induction
import Mathlib.Data.List.Pairwise
import Listbox.Attributes

set_option autoImplicit false

/-! # Layers over layers

What a stack of layers says of a name is a small calculation: what the lower layers say, covered by
what the next one says (`cover`). Covering is associative and idempotent, and it commutes where only
one side says anything. Attributes are known by what they say of each name (`ext_pair?`), so the laws
of merging come down to these three.

Names that compare as equal need not be the same: of several spellings of a name the lowest layer's
is kept, with the value of the highest. `last_layer_wins` says what a merged stack holds, and that
it may be merged in parts. -/

universe u v

namespace Listbox.Attributes

variable {K : Type u} {V : Type v}

/-! ## Covering -/

/-- What two layers say of a name together: the upper one has the last word on its value. -/
def cover : Option (K × V) → Option (K × V) → Option (K × V)
  | some p, some q => some (p.1, q.2)
  | some p, none => some p
  | none, q => q

@[simp]
theorem none_cover (q : Option (K × V)) : cover none q = q := rfl

@[simp]
theorem cover_none (p : Option (K × V)) : cover p none = p := by
  cases p with
  | none => rfl
  | some p => rfl

@[simp]
theorem cover_self (p : Option (K × V)) : cover p p = p := by
  cases p with
  | none => rfl
  | some p => rfl

theorem cover_assoc (p q r : Option (K × V)) : cover (cover p q) r = cover p (cover q r) := by
  cases p with
  | none => rfl
  | some p =>
    cases q with
    | none => simp
    | some q =>
      cases r with
      | none => simp
      | some r => rfl

theorem cover_comm {p q : Option (K × V)} (h : p = none ∨ q = none) : cover p q = cover q p := by
  rcases h with rfl | rfl
  · simp
  · simp

instance : Std.Associative (cover (K := K) (V := V)) := ⟨cover_assoc⟩

/-- The value is the upper one, if there is one. -/
theorem map_snd_cover (p q : Option (K × V)) :
    (cover p q).map (·.2) = (q.map (·.2)).or (p.map (·.2)) := by
  cases p with
  | none => simp
  | some p =>
    cases q with
    | none => simp
    | some q => rfl

/-! ## What one layer says -/

variable [Ord K] {a b : Attributes K V} {k : K} {p : K × V}

/-- The names in the order in which they are listed. -/
def names (a : Attributes K V) : List K := a.pairs.map (·.1)

/-- The layer has a value for the name. -/
def Mentions (a : Attributes K V) (k : K) : Prop := ∃ x ∈ a.names, compare k x = .eq

/-- The layers have no name in common. -/
def Disjoint (a b : Attributes K V) : Prop := ∀ k, a.Mentions k → ¬ b.Mentions k

/-- A name as it is listed, with its value. -/
def pair? (a : Attributes K V) (k : K) : Option (K × V) :=
  a.pairs.find? fun p => compare k p.1 == .eq

theorem get?_eq_map_pair? (a : Attributes K V) (k : K) : a.get? k = (a.pair? k).map (·.2) := rfl

theorem pair?_eq_none_iff : a.pair? k = none ↔ ¬ a.Mentions k := by
  simp [pair?, Mentions, names, List.find?_eq_none]

theorem get?_eq_none_iff : a.get? k = none ↔ ¬ a.Mentions k := by
  rw [get?_eq_map_pair?, Option.map_eq_none_iff, pair?_eq_none_iff]

/-- What the layers say of a name, one over the other. -/
def said? (layers : List (Attributes K V)) (k : K) : Option (K × V) :=
  (layers.map fun a => a.pair? k).foldl cover none

theorem said?_append (layers others : List (Attributes K V)) (k : K) :
    said? (layers ++ others) k = cover (said? layers k) (said? others k) := by
  have hcover : (others.map fun a => a.pair? k).foldl cover (cover (said? layers k) none) =
      cover (said? layers k) (said? others k) := List.foldl_assoc
  rw [cover_none] at hcover
  rw [← hcover, said?, List.map_append, List.foldl_append]
  rfl

@[simp]
theorem said?_singleton (a : Attributes K V) (k : K) : said? [a] k = a.pair? k := rfl

theorem said?_cons (a : Attributes K V) (layers : List (Attributes K V)) (k : K) :
    said? (a :: layers) k = cover (a.pair? k) (said? layers k) :=
  said?_append [a] layers k

/-- A name below all the names of some pairs is not among them. -/
theorem find?_eq_none_of_lt {ps : List (K × V)} (h : ∀ q ∈ ps, compare k q.1 = .lt) :
    (ps.find? fun q => compare k q.1 == .eq) = none := by
  rw [List.find?_eq_none]
  intro q hq
  simp [h q hq]

variable [Std.TransOrd K]

/-- No name is listed twice. -/
theorem eq_of_mem_pairs {q : K × V} (hp : p ∈ a.pairs) (hq : q ∈ a.pairs)
    (h : compare p.1 q.1 = .eq) : p = q := by
  by_contra hne
  have hsymm : Std.Symm fun p q : K × V => compare p.1 q.1 ≠ .eq :=
    ⟨fun _ _ hpq hqp => hpq (Std.OrientedCmp.eq_symm hqp)⟩
  have happart : a.pairs.Pairwise fun p q => compare p.1 q.1 ≠ .eq := by
    refine a.sorted.imp fun {p q} hlt => ?_
    simp [hlt]
  exact happart.forall hp hq hne h

theorem pair?_eq_some_iff : a.pair? k = some p ↔ p ∈ a.pairs ∧ compare k p.1 = .eq := by
  have hfound {q : K × V} (h : a.pair? k = some q) : q ∈ a.pairs ∧ compare k q.1 = .eq :=
    ⟨List.mem_of_find?_eq_some h, by simpa using List.find?_some h⟩
  constructor
  · exact hfound
  · rintro ⟨hp, hk⟩
    cases h : a.pair? k with
    | none =>
      have hmentions : a.Mentions k := ⟨p.1, List.mem_map_of_mem hp, hk⟩
      exact absurd hmentions (pair?_eq_none_iff.1 h)
    | some q =>
      obtain ⟨hq, hkq⟩ := hfound h
      rw [eq_of_mem_pairs hq hp (by rw [← Std.TransCmp.congr_left hkq, hk])]

theorem mem_pairs_iff : p ∈ a.pairs ↔ a.pair? p.1 = some p := by
  rw [pair?_eq_some_iff, and_iff_left Std.ReflCmp.compare_self]

theorem nodup_pairs (a : Attributes K V) : a.pairs.Nodup := by
  refine a.sorted.imp fun {p q} hlt => ?_
  rintro rfl
  simp at hlt

/-- **Extensionality.** Attributes that say the same of each name are the same. -/
theorem ext_pair? (h : ∀ k, a.pair? k = b.pair? k) : a = b := by
  have hmem : ∀ p, p ∈ a.pairs ↔ p ∈ b.pairs := by
    intro p
    rw [mem_pairs_iff, mem_pairs_iff, h]
  have hperm : a.pairs.Perm b.pairs :=
    (List.perm_ext_iff_of_nodup a.nodup_pairs b.nodup_pairs).2 hmem
  have hantisymm : ∀ p q : K × V, p ∈ a.pairs → q ∈ b.pairs → compare p.1 q.1 = .lt →
      compare q.1 p.1 = .lt → p = q := by
    intro p q _ _ hpq hqp
    exact absurd hqp (Std.OrientedCmp.not_lt_of_lt hpq)
  ext1
  exact hperm.eq_of_pairwise hantisymm a.sorted b.sorted

/-! ## What a merged stack says -/

/-- Setting a value covers what is said of its name, and changes nothing else. -/
theorem pair?_set (a : Attributes K V) (k : K) (v : V) (k' : K) :
    (a.set k v).pair? k' =
      if compare k' k = .eq then cover (a.pair? k') (some (k, v)) else a.pair? k' := by
  obtain ⟨ps, h⟩ := a
  simp only [pair?, set]
  fun_induction place k v ps with
  | case1 => by_cases hk : compare k' k = .eq <;> simp [hk]
  | case2 x w rest hlt =>
    by_cases hk : compare k' k = .eq
    -- all names from here on are above the new one, so none of them was the same
    · have hbelow : ∀ q ∈ (x, w) :: rest, compare k' q.1 = .lt := by
        intro q hq
        rw [Std.TransCmp.congr_left hk, lt_of_lt_head h hlt q hq]
      rw [find?_eq_none_of_lt hbelow]
      simp [hk]
    · simp [List.find?_cons, hk]
  | case3 x w rest heq =>
    have hx : compare k' k = compare k' x := Std.TransCmp.congr_right heq
    by_cases hk : compare k' x = .eq
    · simp [hx, hk, cover]
    · simp [hx, hk]
  | case4 x w rest hgt ih =>
    by_cases hk : compare k' x = .eq
    · have hne : compare k' k ≠ .eq := by
        intro hk'
        have : compare k x = .eq := (Std.TransCmp.congr_left hk').symm.trans hk
        simp [this] at hgt
      simp [hk, hne]
    · simpa [List.find?_cons, hk] using ih (List.pairwise_cons.1 h).2

/-- Setting one value after the other comes to covering, as long as no name comes twice. -/
theorem pair?_setAll {ps : List (K × V)} (h : ps.Pairwise fun p q => compare p.1 q.1 = .lt)
    (a : Attributes K V) (k : K) :
    (a.setAll ps).pair? k = cover (a.pair? k) (ps.find? fun p => compare k p.1 == .eq) := by
  induction ps generalizing a with
  | nil => simp [setAll]
  | cons p ps ih =>
    obtain ⟨hhead, hrest⟩ := List.pairwise_cons.1 h
    change ((a.set p.1 p.2).setAll ps).pair? k = _
    rw [ih hrest, pair?_set]
    by_cases hk : compare k p.1 = .eq
    -- the name is this one, so it does not come again
    · have hbelow : ∀ q ∈ ps, compare k q.1 = .lt := by
        intro q hq
        rw [Std.TransCmp.congr_left hk, hhead q hq]
      simp [hk, find?_eq_none_of_lt hbelow]
    · simp [hk]

/-- **Stacks.** Merged layers say what the layers say. -/
theorem pair?_merge (layers : List (Attributes K V)) (k : K) :
    (merge layers).pair? k = said? layers k := by
  induction layers using List.reverseRecOn with
  | nil => rfl
  | append_singleton layers a ih =>
    have hmerge : merge (layers ++ [a]) = (merge layers).setAll a.pairs := by
      rw [merge, List.foldl_append]
      rfl
    rw [hmerge, pair?_setAll a.sorted, ih, said?_append]
    rfl

/-- The value of a name is the last one that a layer has for it. -/
theorem get?_merge (layers : List (Attributes K V)) (k : K) :
    (merge layers).get? k = layers.reverse.findSome? fun a => a.get? k := by
  rw [get?_eq_map_pair?, pair?_merge]
  induction layers using List.reverseRecOn with
  | nil => rfl
  | append_singleton layers a ih =>
    rw [said?_append, map_snd_cover, ih, List.reverse_append, List.findSome?_append]
    simp [get?_eq_map_pair?]

theorem get?_merge_eq_some_iff {layers : List (Attributes K V)} {v : V} :
    (merge layers).get? k = some v ↔
      ∃ lower layer upper, layers = lower ++ layer :: upper ∧ layer.get? k = some v ∧
        ∀ a ∈ upper, ¬ a.Mentions k := by
  simp only [get?_merge, List.findSome?_eq_some_iff, get?_eq_none_iff]
  constructor
  · rintro ⟨upper, layer, lower, hlayers, hvalue, hupper⟩
    refine ⟨lower.reverse, layer, upper.reverse, ?_, hvalue, ?_⟩
    · simpa using congrArg List.reverse hlayers
    · simpa using hupper
  · rintro ⟨lower, layer, upper, rfl, hvalue, hupper⟩
    refine ⟨upper.reverse, layer, lower.reverse, ?_, hvalue, ?_⟩
    · simp
    · simpa using hupper

theorem mentions_merge_iff {layers : List (Attributes K V)} :
    (merge layers).Mentions k ↔ ∃ a ∈ layers, a.Mentions k := by
  rw [← not_iff_not, ← get?_eq_none_iff, get?_merge, List.findSome?_eq_none_iff]
  simp [get?_eq_none_iff]

/-! ## Laws -/

theorem merge_append (layers others : List (Attributes K V)) :
    merge (layers ++ others) = merge [merge layers, merge others] := by
  refine ext_pair? fun k => ?_
  rw [pair?_merge, said?_append, pair?_merge, said?_cons, said?_singleton, pair?_merge,
    pair?_merge]

theorem merge_repeat (layers : List (Attributes K V)) (a : Attributes K V) :
    merge (layers ++ [a, a]) = merge (layers ++ [a]) := by
  refine ext_pair? fun k => ?_
  have htwice : said? [a, a] k = said? [a] k := by
    rw [said?_cons, said?_singleton, cover_self]
  rw [pair?_merge, pair?_merge, said?_append, said?_append, htwice]

/-- Layers without a common name may change places, whatever is below and above them. -/
theorem merge_swap (h : a.Disjoint b) (lower upper : List (Attributes K V)) :
    merge (lower ++ a :: b :: upper) = merge (lower ++ b :: a :: upper) := by
  refine ext_pair? fun k => ?_
  have hnone : a.pair? k = none ∨ b.pair? k = none := by
    rw [pair?_eq_none_iff, pair?_eq_none_iff, ← not_and_or]
    rintro ⟨ha, hb⟩
    exact h k ha hb
  simp only [pair?_merge, said?_append, said?_cons]
  rw [← cover_assoc (a.pair? k), cover_comm hnone, cover_assoc]

/-- **Layers.** A merged stack has for each name the value that the last layer to mention it has, and
it has no other names, which stand in increasing order. A stack may be merged in two parts; its last
layer may come twice; and layers without a common name may change places. -/
theorem last_layer_wins :
    (∀ (layers : List (Attributes K V)) (k : K) (v : V),
      (merge layers).get? k = some v ↔
        ∃ lower layer upper, layers = lower ++ layer :: upper ∧ layer.get? k = some v ∧
          ∀ a ∈ upper, ¬ a.Mentions k) ∧
    (∀ (layers : List (Attributes K V)) (k : K),
      (merge layers).Mentions k ↔ ∃ a ∈ layers, a.Mentions k) ∧
    (∀ layers : List (Attributes K V),
      (merge layers).names.Pairwise fun x y => compare x y = .lt) ∧
    (∀ layers others : List (Attributes K V),
      merge (layers ++ others) = merge [merge layers, merge others]) ∧
    (∀ (layers : List (Attributes K V)) (a : Attributes K V),
      merge (layers ++ [a, a]) = merge (layers ++ [a])) ∧
    (∀ (a b : Attributes K V) (lower upper : List (Attributes K V)), a.Disjoint b →
      merge (lower ++ a :: b :: upper) = merge (lower ++ b :: a :: upper)) := by
  refine ⟨?_, ?_, ?_, merge_append, merge_repeat, ?_⟩
  · intro layers k v
    exact get?_merge_eq_some_iff
  · intro layers k
    exact mentions_merge_iff
  · intro layers
    exact List.pairwise_map.2 (merge layers).sorted
  · intro a b lower upper h
    exact merge_swap h lower upper

/-- Three layers of which the outer ones have no name in common. -/
theorem last_layer_wins_three :
    let a : Attributes Nat Char := .ofList [(1, 'a'), (2, 'a')]
    let b : Attributes Nat Char := .ofList [(2, 'b'), (3, 'b')]
    let c : Attributes Nat Char := .ofList [(3, 'c')]
    a.Disjoint c ∧ (merge [a, b, c]).get? 2 = some 'b' ∧ merge [b, a, c] = merge [b, c, a] := by
  intro a b c
  have hnames : ∀ x ∈ a.names, x ∉ c.names := by decide
  have hdisjoint : a.Disjoint c := by
    rintro k ⟨x, hx, hkx⟩ ⟨y, hy, hky⟩
    rw [Nat.compare_eq_eq] at hkx hky
    rw [← hkx] at hx
    rw [← hky] at hy
    exact hnames k hx hy
  obtain ⟨hvalue, -, -, -, -, hswap⟩ := last_layer_wins (K := Nat) (V := Char)
  refine ⟨hdisjoint, (hvalue _ 2 'b').2 ⟨[a], b, [c], rfl, by decide, ?_⟩, ?_⟩
  · intro d hd
    rw [List.mem_singleton.1 hd, ← get?_eq_none_iff]
    decide
  · exact hswap a c [b] [] hdisjoint

/-- Every name comes once, with its last value. -/
example : (merge (K := Nat) [ofList [(1, 'a'), (2, 'a')], ofList [(2, 'b'), (3, 'b')],
    ofList [(3, 'c')]]).pairs = [(1, 'a'), (2, 'b'), (3, 'c')] := by decide

end Listbox.Attributes
