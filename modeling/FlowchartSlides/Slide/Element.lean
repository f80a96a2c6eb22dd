import FlowchartSlides.Slide.Rect
import FlowchartSlides.Slide.Theme

/-!
# Elements of a slide

The flowchart on a slide consists of shapes and of connectors between them.
Free text boxes are no elements.
-/
namespace FlowchartSlides

inductive ShapeKind where
  | rectangle
  | roundRect
  | ellipse
deriving Repr, DecidableEq

namespace ShapeKind

def name : ShapeKind → String
  | rectangle => "rectangle"
  | roundRect => "roundRect"
  | ellipse => "ellipse"

def all : List ShapeKind := [rectangle, roundRect, ellipse]

def ofName? (name : String) : Option ShapeKind := all.find? (·.name == name)

end ShapeKind

/-- How a connector ends at its target. -/
inductive ArrowHead where
  | arrow
  | line
deriving Repr, DecidableEq

namespace ArrowHead

def name : ArrowHead → String
  | arrow => "arrow"
  | line => "line"

def all : List ArrowHead := [arrow, line]

def ofName? (name : String) : Option ArrowHead := all.find? (·.name == name)

end ArrowHead

structure Shape where
  id : String
  kind : ShapeKind
  text : String
  rect : Rect
  style : ShapeStyle
deriving Repr

structure Connector where
  id : String
  source : String
  target : String
  route : Route
  head : ArrowHead
  style : ConnectorStyle
deriving Repr

def Connector.isDirected (c : Connector) : Bool := c.head == .arrow

inductive Element where
  | shape (s : Shape)
  | connector (c : Connector)
deriving Repr

inductive ElementKind where
  | shape
  | connector
deriving Repr, DecidableEq

def ElementKind.name : ElementKind → String
  | shape => "shape"
  | connector => "connector"

namespace Element

def id : Element → String
  | shape s => s.id
  | connector c => c.id

def kind : Element → ElementKind
  | shape _ => .shape
  | connector _ => .connector

/-- Connectors have no text. -/
def text : Element → String
  | shape s => s.text
  | connector _ => ""

/-- The box that an element takes. -/
def box : Element → Rect
  | shape s => s.rect
  | connector c => c.route.bounds

def shape? : Element → Option Shape
  | shape s => some s
  | connector _ => none

def connector? : Element → Option Connector
  | shape _ => none
  | connector c => some c

/-- Puts a shape's corner, or a connector's anchor, at a point. -/
def moveTo (x y : Float32) : Element → Element
  | shape s => shape { s with rect := { s.rect with x := x, y := y } }
  | connector c => connector { c with route := { c.route with anchorX := x, anchorY := y } }

/-- An extent of a new size that keeps the sign of the old one. -/
def signedLike (old size : Float32) : Float32 := if old < 0 then -size else size

/-- Gives an element a size; a connector keeps the directions of its extents. -/
def resize (width height : Float32) : Element → Element
  | shape s =>
    shape { s with rect := { s.rect with width := clampSize width, height := clampSize height } }
  | connector c =>
    connector { c with route := { c.route with
      dx := signedLike c.route.dx (clampSize width)
      dy := signedLike c.route.dy (clampSize height) } }

end Element

/-- What a restyling may set. -/
structure Restyling where
  fill : Option String
  line : Option String
  lineWidth : Option Float32
  fontSize : Option Float32
deriving Repr

namespace Restyling

/-- The new line width: a new line colour alone makes the line one wide. -/
def newLineWidth (r : Restyling) (old : Float32) : Float32 :=
  match r.line, r.lineWidth with
  | _, some width => width
  | some _, none => 1
  | none, none => old

/-- Connectors have no fill and no font, so only the line of theirs changes. -/
def apply (r : Restyling) : Element → Element
  | .shape s =>
    .shape { s with style := { s.style with
      fillColor := r.fill.getD s.style.fillColor
      lineColor := r.line.getD s.style.lineColor
      lineWidth := r.newLineWidth s.style.lineWidth
      fontSize := r.fontSize.getD s.style.fontSize } }
  | .connector c =>
    .connector { c with style := {
      lineColor := r.line.getD c.style.lineColor
      lineWidth := r.newLineWidth c.style.lineWidth } }

end Restyling

structure TextBox where
  text : String
  rect : Rect
  style : TextStyle
deriving Repr

end FlowchartSlides
