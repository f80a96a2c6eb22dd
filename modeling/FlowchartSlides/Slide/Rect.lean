/-!
# Rectangles and connector routes

Lengths are inches from the top left corner of the slide, in 32-bit floats.
A connector runs from the middle of the right side of its source towards the
top left corner of its target; its extents keep their sign, and `Route.bounds`
gives the box without sign.
-/
namespace FlowchartSlides

structure Rect where
  x : Float32
  y : Float32
  width : Float32
  height : Float32
deriving Repr, Inhabited

namespace Rect

def right (r : Rect) : Float32 := r.x + r.width

def centerY (r : Rect) : Float32 := r.y + r.height / 2

end Rect

/-- The smaller of two numbers, of two equal ones the second, so that the two
zeros are told apart; an operand that is NaN is ignored. -/
def lesser (a b : Float32) : Float32 := if a < b then a else if b.isNaN then a else b

/-- A size that is not above zero, or is NaN, becomes zero. -/
def clampSize (x : Float32) : Float32 := if 0 < x then x else 0

/-- The drawn line of a connector. -/
structure Route where
  anchorX : Float32
  anchorY : Float32
  dx : Float32
  dy : Float32
  flipH : Bool
  flipV : Bool
deriving Repr, Inhabited

namespace Route

/-- The route from one rectangle to another. The horizontal flip compares the
left sides, the vertical one follows the sign of the extent. -/
def between (source target : Rect) : Route :=
  let dy := target.y - source.y
  { anchorX := source.right
    anchorY := source.centerY
    dx := target.x - source.right
    dy := dy
    flipH := decide (target.x < source.x)
    flipV := decide (dy < 0) }

/-- The box around a route, with sizes that have no sign. -/
def bounds (r : Route) : Rect :=
  { x := lesser r.anchorX (r.anchorX + r.dx)
    y := lesser r.anchorY (r.anchorY + r.dy)
    width := r.dx.abs
    height := r.dy.abs }

end Route

end FlowchartSlides
