import Listbox.Proofs.Paging

set_option autoImplicit false

/-! # The direction of writing

Turning the direction of writing round exchanges left and right, also where a step comes back at the
other end, and changes no other move (`direction_mirrors_sides`). What left and right are is said once:
in a list that has sides and is written to the right, a step to the right is a step down in the list
turned over, with columns for rows and its layout transposed. -/

universe u v

namespace Listbox

/-! ## Turning round -/

/-- The other direction of writing. -/
def Direction.opposite : Direction → Direction
  | .ltr => .rtl
  | .rtl => .ltr

theorem Direction.opposite_beq (d e : Direction) : (d.opposite == e) = (d == e.opposite) := by
  cases d <;> cases e <;> rfl

variable {K : Type u} {T : Type v} [DecidableEq K] [Hashable K]

namespace Navigator

variable {v : Navigator K T} {forward : Bool} {k : K}

/-- The same list, written in the other direction. -/
def mirrored (v : Navigator K T) : Navigator K T :=
  { v with config := { v.config with direction := v.config.direction.opposite } }

/-- Steps to the side do not look at the direction of writing again. -/
theorem sideways?_mirrored : v.mirrored.sideways? forward k = v.sideways? forward k := rfl

theorem leftOf?_mirrored : v.mirrored.leftOf? k = v.rightOf? k := by
  change v.mirrored.sideways? (v.config.direction.opposite == .rtl) k =
    v.sideways? (v.config.direction == .ltr) k
  rw [sideways?_mirrored, Direction.opposite_beq, Direction.opposite]

theorem rightOf?_mirrored : v.mirrored.rightOf? k = v.leftOf? k := by
  change v.mirrored.sideways? (v.config.direction.opposite == .ltr) k =
    v.sideways? (v.config.direction == .rtl) k
  rw [sideways?_mirrored, Direction.opposite_beq, Direction.opposite]

/-- Every other move is as before. -/
theorem go?_mirrored {move : Move} (hleft : move ≠ .leftOf) (hright : move ≠ .rightOf) :
    v.mirrored.go? k move = v.go? k move := by
  cases move with
  | below | above | first | last => rfl
  | leftOf => exact absurd rfl hleft
  | rightOf => exact absurd rfl hright
  | pageBelow | pageAbove => exact page?_withConfig rfl rfl rfl

end Navigator

/-! ## Turning over -/

def Orientation.other : Orientation → Orientation
  | .vertical => .horizontal
  | .horizontal => .vertical

/-- The rectangle with columns for rows. -/
def Rect.transposed (r : Rect) : Rect := ⟨r.y0, r.x0, r.y1, r.x1⟩

def Size.transposed (s : Size) : Size := ⟨s.height, s.width⟩

/-- The layout with columns for rows. -/
def Layout.transposed (layout : Layout K) : Layout K where
  rect? k := (layout.rect? k).map Rect.transposed
  visible := layout.visible.transposed
  content := layout.content.transposed

namespace Navigator

variable {v : Navigator K T} {forward : Bool} {k : K}

/-- The list with columns for rows. -/
def turned (v : Navigator K T) : Navigator K T :=
  { v with
    config := { v.config with orientation := v.config.orientation.other }
    layout := v.layout.map Layout.transposed }

/-- Across the lines of a layout is along those of the transposed one. -/
theorem stepInLayout?_turned : v.turned.stepInLayout? Rect.sameColumnOtherRow forward k =
    v.stepInLayout? Rect.sameRowOtherColumn forward k := by
  cases hlayout : v.layout with
  | none =>
    rw [stepInLayout?, stepInLayout?, hlayout]
    simp only [turned, hlayout, Option.map_none]
    rfl
  | some layout =>
    have hturned : v.turned.layout = some layout.transposed := by
      rw [turned, hlayout]
      rfl
    rw [stepInLayout?, stepInLayout?, hlayout, hturned]
    change ((layout.rect? k).map Rect.transposed).bind _ = _
    rw [Option.bind_map]
    refine congrArg _ (funext fun source => ?_)
    have hrelated : ∀ n : Node K T, (layout.transposed.rect? n.key).all
        (source.transposed.sameColumnOtherRow ·) =
          (layout.rect? n.key).all (source.sameRowOtherColumn ·) := fun n => Option.all_map
    simp only [Function.comp_apply, hrelated]
    rfl

/-- A step to the side is a step up or down in the list turned over. -/
theorem horizontal?_eq_vertical?_turned (hsides : v.hasSides = true) :
    v.horizontal? forward k = v.turned.vertical? forward k := by
  rw [horizontal?, vertical?]
  cases harrangement : v.config.arrangement with
  | stack =>
    cases horientation : v.config.orientation with
    | vertical =>
      rw [hasSides, harrangement, horientation] at hsides
      cases hsides
    | horizontal =>
      simp only [turned, harrangement, horientation]
      rfl
  | grid =>
    cases horientation : v.config.orientation with
    | vertical =>
      simp only [turned, harrangement, horientation]
      rfl
    | horizontal =>
      rw [← stepInLayout?_turned]
      simp only [turned, harrangement, horientation]
      rfl

theorem sideways?_eq_upDown?_turned (hsides : v.hasSides = true) :
    v.sideways? forward k = v.turned.upDown? forward k := by
  rw [sideways?, upDown?, hsides, Bool.and_true, horizontal?_eq_vertical?_turned hsides]
  rfl

theorem sideways?_of_no_sides (hsides : v.hasSides = false) : v.sideways? forward k = none := by
  rw [sideways?, hsides, Bool.and_false, if_neg Bool.false_ne_true]

/-- **Mirroring.** Of two lists that differ in the direction of writing only, a step to the left in one
leads where a step to the right leads in the other, over the ends too, and all other moves lead to the
same. In the one that is written to the right, a step to the right is the step down in the list turned
over and a step to the left is the step up there; only a list without sides has no such steps. -/
theorem direction_mirrors_sides (v : Navigator K T) (k : K) :
    v.mirrored.leftOf? k = v.rightOf? k ∧
    v.mirrored.rightOf? k = v.leftOf? k ∧
    (∀ move, move ≠ .leftOf → move ≠ .rightOf → v.mirrored.go? k move = v.go? k move) ∧
    (v.config.direction = .ltr → v.hasSides = true →
      v.rightOf? k = v.turned.below? k ∧ v.leftOf? k = v.turned.above? k) ∧
    (v.hasSides = false → v.rightOf? k = none ∧ v.leftOf? k = none) := by
  refine ⟨leftOf?_mirrored, rightOf?_mirrored, fun _ => go?_mirrored, fun hltr hsides => ?_,
    fun hsides => ⟨sideways?_of_no_sides hsides, sideways?_of_no_sides hsides⟩⟩
  rw [rightOf?, leftOf?, hltr]
  exact ⟨sideways?_eq_upDown?_turned hsides, sideways?_eq_upDown?_turned hsides⟩

/-- Over the end to the right in one list and to the left in the other, and no steps to the side in the
column. -/
theorem direction_mirrors_sides_orchard :
    ∃ c, Collection.ofForest orchard = .ok c ∧
      let v : Navigator Nat Unit := new c { orientation := .horizontal, wraps := true }
      let column : Navigator Nat Unit := new c { wraps := true }
      v.config.direction = .ltr ∧ v.hasSides = true ∧ v.rightOf? 5 = some 1 ∧
        v.mirrored.leftOf? 5 = some 1 ∧ v.mirrored.rightOf? 5 = v.leftOf? 5 ∧
        v.mirrored.go? 5 .pageAbove = v.go? 5 .pageAbove ∧
        column.hasSides = false ∧ column.rightOf? 5 = none := by
  obtain ⟨c, hc⟩ := Collection.exists_ofForest_ok_iff.2 (show orchard.keys.Nodup by decide)
  let v : Navigator Nat Unit := new c { orientation := .horizontal, wraps := true }
  let column : Navigator Nat Unit := new c { wraps := true }
  obtain ⟨hleft, hright, hother, hturned, -⟩ := direction_mirrors_sides v 5
  have hover : v.rightOf? 5 = some 1 := by
    have hkeys : v.turned.collection.keys = [1, 2, 3, 4] ++ 5 :: [] := Collection.keys_ofForest hc
    have hstops : v.turned.stops = [1, 3, 5] := stops_orchard hc { wraps := true } none
    rw [(hturned rfl rfl).1, below?_of_keys_eq rfl hkeys, wrap?_true, hstops]
    rfl
  have hpage := hother .pageAbove (by decide) (by decide)
  have hnowhere := ((direction_mirrors_sides column 5).2.2.2.2 rfl).1
  exact ⟨c, hc, rfl, rfl, hover, hleft.trans hover, hright, hpage, rfl, hnowhere⟩

end Navigator

end Listbox
