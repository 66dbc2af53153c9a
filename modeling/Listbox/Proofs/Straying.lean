import Mathlib
import Listbox.Press

set_option autoImplicit false

/-! # Where a press may stray

A press does not stray as long as it stays where it began. The test compares floating-point numbers,
and neither the slop nor the point has to be a number that can be reckoned with: the square of the
slop is never below zero, whatever the slop is, and the distance of a point from itself is zero, or
is no number and then exceeds nothing. -/

namespace Listbox

open Float.Model UnpackedFloat

/-! ## Squares -/

/-- The number has no minus sign. -/
def Unsigned : UnpackedFloat → Prop
  | .notANumber => True
  | .infinity s | .zero s | .finite s .. => s = .positive

theorem unsigned_mul_self (spec : Format) (u : UnpackedFloat) : Unsigned (u.mul spec u) := by
  have hsign : ∀ s : Sign, s * s = .positive := by
    intro s
    cases s with
    | positive => rfl
    | negative => rfl
  cases u with
  | notANumber => trivial
  | infinity s => exact hsign s
  | zero s => exact hsign s
  | finite s m e hm =>
    simp only [UnpackedFloat.mul, hsign, roundWithAccuracy]
    -- what is rounded is a finite number or has become too large for one
    split
    · exact rfl
    · exact rfl

theorem unpackSign_pack {spec : Format} {u : UnpackedFloat} (h : Unsigned u) :
    unpackSign (u.pack spec) = 0#1 := by
  cases u with
  | notANumber => exact unpackSign_packComponents ..
  | infinity s =>
    cases h
    exact unpackSign_packComponents ..
  | zero s =>
    cases h
    exact unpackSign_packComponents ..
  | finite s m e hm =>
    cases h
    simp only [UnpackedFloat.pack]
    split
    · exact unpackSign_packComponents ..
    · split
      · exact unpackSign_packComponents ..
      · exact unpackSign_packComponents ..

theorem unsigned_unpack {spec : Format} {b : BitVec spec.numBits} (h : unpackSign b = 0#1) :
    Unsigned (unpack spec b) := by
  have hsign : Sign.ofBitVec (unpackSign b) = .positive := if_pos h
  unfold UnpackedFloat.unpack
  simp only
  split
  · split
    · exact hsign
    · trivial
  · split
    · split
      · exact hsign
      · exact hsign
    · exact hsign

theorem not_mul_self_lt_zero (x : Float) : ¬ x * x < 0 := by
  have hsquare : Unsigned (x * x).toModel.unpack :=
    unsigned_unpack (unpackSign_pack (unsigned_mul_self .binary64 x.toModel.unpack))
  intro h
  have hlt : (x * x).toModel.unpack.lt (.zero .positive) = true := of_decide_eq_true h
  generalize (x * x).toModel.unpack = u at hsquare hlt
  cases u with
  | notANumber => cases hlt
  | infinity s | zero s | finite s m e hm =>
    cases hsquare
    cases hlt

theorem not_lt_nan (x : Float) : ¬ x < Float.nan := by
  intro h
  have hlt : x.toModel.unpack.lt .notANumber = true := of_decide_eq_true h
  generalize x.toModel.unpack = u at hlt
  cases u with
  | notANumber | infinity | zero | finite => cases hlt

/-! ## Distances -/

theorem sub_self_cases (x : Float) : x - x = 0 ∨ x - x = Float.nan := by
  have hunpacked : ∀ u : UnpackedFloat,
      u.sub .binary64 u = .zero .positive ∨ u.sub .binary64 u = .notANumber := by
    intro u
    cases u with
    | notANumber => exact Or.inr rfl
    | infinity s =>
      right
      cases s with
      | positive => rfl
      | negative => rfl
    | zero s =>
      left
      cases s with
      | positive => rfl
      | negative => rfl
    | finite s m e hm =>
      left
      simp only [UnpackedFloat.sub, Int.sub_self]
      rfl
  change Float.ofModel (pack (x.toModel.unpack.sub .binary64 x.toModel.unpack)) = 0 ∨
    Float.ofModel (pack (x.toModel.unpack.sub .binary64 x.toModel.unpack)) = Float.nan
  rcases hunpacked x.toModel.unpack with h | h
  · rw [h]
    exact Or.inl rfl
  · rw [h]
    exact Or.inr rfl

theorem Point.squaredDistance_self (p : Point) :
    p.squaredDistance p = 0 ∨ p.squaredDistance p = Float.nan := by
  unfold squaredDistance
  rcases sub_self_cases p.x with hx | hx
  · rcases sub_self_cases p.y with hy | hy
    · rw [hx, hy]
      exact Or.inl rfl
    · rw [hx, hy]
      exact Or.inr rfl
  · rcases sub_self_cases p.y with hy | hy
    · rw [hx, hy]
      exact Or.inr rfl
    · rw [hx, hy]
      exact Or.inr rfl

/-- **Straying.** A press that is where it began has not strayed. -/
theorem PressTracker.strays_self (config : PressConfig) (p : Point) :
    strays config p p = false := by
  refine decide_eq_false fun h => ?_
  rcases p.squaredDistance_self with hdistance | hdistance
  · rw [hdistance] at h
    exact not_mul_self_lt_zero config.slop h
  · rw [hdistance] at h
    exact not_lt_nan (config.slop * config.slop) h

end Listbox
