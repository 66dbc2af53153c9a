set_option autoImplicit false

/-! # Attribute layers

A row gets its attributes from several layers, and a later layer has the last word on the names it
mentions. A layer is kept as its pairs in increasing order of the names, so two layers with the same
attributes are the same layer. -/

universe u v

namespace Listbox

/-- Attributes by name. -/
@[ext]
structure Attributes (K : Type u) (V : Type v) [Ord K] where
  pairs : List (K × V)
  /-- The names stand in increasing order, each once. -/
  sorted : pairs.Pairwise fun p q => compare p.1 q.1 = .lt

namespace Attributes

variable {K : Type u} {V : Type v} [Ord K]

/-- No attributes. -/
def empty : Attributes K V := ⟨[], List.Pairwise.nil⟩

instance : EmptyCollection (Attributes K V) := ⟨empty⟩

/-- Sorted pairs with the value `v` for `k`, in place of any earlier one. -/
def place (k : K) (v : V) : List (K × V) → List (K × V)
  | [] => [(k, v)]
  | (k', v') :: rest =>
    match compare k k' with
    | .lt => (k, v) :: (k', v') :: rest
    | .eq => (k', v) :: rest
    | .gt => (k', v') :: place k v rest

/-- Placing a pair brings in no name but its own. -/
theorem name_of_mem_place {k : K} {v : V} {ps : List (K × V)} {p : K × V} (h : p ∈ place k v ps) :
    p.1 = k ∨ ∃ q ∈ ps, q.1 = p.1 := by
  fun_induction place k v ps with
  | case1 => simp_all
  | case2 k' v' rest hlt =>
    rcases List.mem_cons.1 h with rfl | h
    · exact .inl rfl
    · exact .inr ⟨p, h, rfl⟩
  | case3 k' v' rest heq =>
    rcases List.mem_cons.1 h with rfl | h
    · exact .inr ⟨(k', v'), List.mem_cons_self, rfl⟩
    · exact .inr ⟨p, List.mem_cons_of_mem _ h, rfl⟩
  | case4 k' v' rest hgt ih =>
    rcases List.mem_cons.1 h with rfl | h
    · exact .inr ⟨(k', v'), List.mem_cons_self, rfl⟩
    · rcases ih h with e | ⟨q, hq, e⟩
      · exact .inl e
      · exact .inr ⟨q, List.mem_cons_of_mem _ hq, e⟩

/-- The value of a name in a list of pairs. -/
def valueIn? (k : K) (ps : List (K × V)) : Option V :=
  (ps.find? fun p => compare k p.1 == .eq).map (·.2)

/-- The value of a name. -/
def get? (a : Attributes K V) (k : K) : Option V := valueIn? k a.pairs

variable [Std.TransOrd K]

/-- What is below the first name of sorted pairs is below all of them. -/
theorem lt_of_lt_head {k x : K} {w : V} {rest : List (K × V)}
    (h : ((x, w) :: rest).Pairwise fun p q => compare p.1 q.1 = .lt) (hlt : compare k x = .lt) :
    ∀ q ∈ (x, w) :: rest, compare k q.1 = .lt := by
  intro q hq
  rcases List.mem_cons.1 hq with rfl | hq
  · exact hlt
  · exact Std.TransCmp.lt_trans hlt ((List.pairwise_cons.1 h).1 q hq)

theorem sorted_place {ps : List (K × V)} (h : ps.Pairwise fun p q => compare p.1 q.1 = .lt)
    (k : K) (v : V) : (place k v ps).Pairwise fun p q => compare p.1 q.1 = .lt := by
  fun_induction place k v ps with
  | case1 => exact List.pairwise_singleton _ _
  | case2 k' v' rest hlt => exact List.pairwise_cons.2 ⟨lt_of_lt_head h hlt, h⟩
  | case3 k' v' rest heq => exact List.pairwise_cons.2 (List.pairwise_cons.1 h)
  | case4 k' v' rest hgt ih =>
    obtain ⟨hhead, hrest⟩ := List.pairwise_cons.1 h
    refine List.pairwise_cons.2 ⟨fun q hq => ?_, ih hrest⟩
    rcases name_of_mem_place hq with e | ⟨p, hp, e⟩
    · rw [e]
      exact Std.OrientedCmp.gt_iff_lt.1 hgt
    · rw [← e]
      exact hhead p hp

/-- Gives `k` the value `v`. -/
def set (a : Attributes K V) (k : K) (v : V) : Attributes K V :=
  ⟨place k v a.pairs, sorted_place a.sorted k v⟩

/-- Gives names their values one after the other, so that a later pair has the last word. -/
def setAll (a : Attributes K V) (pairs : List (K × V)) : Attributes K V :=
  pairs.foldl (fun a p => a.set p.1 p.2) a

/-- The attributes of a list of pairs. -/
def ofList (pairs : List (K × V)) : Attributes K V := empty.setAll pairs

/-- All layers in one: each name has its value in the last layer that mentions it. -/
def merge (layers : List (Attributes K V)) : Attributes K V :=
  layers.foldl (fun merged layer => merged.setAll layer.pairs) empty

end Attributes

end Listbox
