import Std.Data.HashMap

set_option autoImplicit false

/-! # Geometry

Points and rectangles in the plane of a list, and what a layout knows about it: the rectangle of
each measured row, the part in view and the size of the whole.

`Point`, `Size` and `Rect` are the types of these names in kurbo, as it documents them: their fields
are doubles, a rectangle is given by its corners `x0`, `y0` and `x1`, `y1`, its width is `x1 - x0`
and its height `y1 - y0`, and the squared distance of two points is the sum of the squares of the
differences of their `x` and of their `y`. All of it is computed, and rounded, in doubles. -/

universe u

namespace Listbox

structure Point where
  x : Float
  y : Float

structure Size where
  width : Float
  height : Float

/-- The corners of a rectangle. -/
structure Rect where
  x0 : Float
  y0 : Float
  x1 : Float
  y1 : Float

namespace Point

def zero : Point := ⟨0, 0⟩

/-- The square of the distance between two points. -/
def squaredDistance (p q : Point) : Float :=
  (q.x - p.x) * (q.x - p.x) + (q.y - p.y) * (q.y - p.y)

end Point

namespace Rect

def width (r : Rect) : Float := r.x1 - r.x0

def height (r : Rect) : Float := r.y1 - r.y0

/-- Whether two rectangles start at the same column and at different rows. -/
def sameColumnOtherRow (r s : Rect) : Bool := s.x0 == r.x0 && s.y0 != r.y0

/-- Whether two rectangles start at the same row and at different columns. -/
def sameRowOtherColumn (r s : Rect) : Bool := s.y0 == r.y0 && s.x0 != r.x0

end Rect

/-- What is known of where rows are drawn. -/
structure Layout (K : Type u) where
  /-- The rectangle of a row, if the row has been measured. -/
  rect? : K → Option Rect
  /-- The part of the content in view. -/
  visible : Rect
  content : Size

namespace Layout

variable {K : Type u}

/-- The layout whose rectangles stand in a table. -/
def ofTable [DecidableEq K] [Hashable K] (visible : Rect) (content : Size)
    (rects : List (K × Rect)) : Layout K :=
  let table := Std.HashMap.ofList rects
  { rect? := fun k => table[k]?, visible, content }

/-- A grid of `count` cells of one size in lines of `columns`, seen from its first corner. The cell
of a key is the one that `index?` says, counted along the lines. -/
def cells (columns count : Nat) (cell view : Size) (index? : K → Option Nat) : Layout K :=
  { rect? := fun k =>
      (index? k).bind fun i =>
        if i < count then
          let x := Float.ofNat (i % columns) * cell.width
          let y := Float.ofNat (i / columns) * cell.height
          some ⟨x, y, x + cell.width, y + cell.height⟩
        else none
    visible := ⟨0, 0, view.width, view.height⟩
    content :=
      ⟨Float.ofNat columns * cell.width, Float.ofNat ((count + columns - 1) / columns) * cell.height⟩ }

end Layout

end Listbox
