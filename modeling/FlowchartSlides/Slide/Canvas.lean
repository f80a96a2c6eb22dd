import FlowchartSlides.Icons.Basic
import FlowchartSlides.Slide.Element
import FlowchartSlides.Slide.Layout

/-!
# The canvas of a slide

A canvas holds the elements of one slide by id, in the order in which their ids
first arrived, which is the order in which they are drawn. An element under a
present id replaces the old one in its place. Text boxes and the history of
what was added only grow.
-/
namespace FlowchartSlides

/-- One entry of a canvas's history. -/
inductive Event where
  | addShape (id : String) (kind : ShapeKind)
  | addConnector (id source target : String)
  | addText (text : String)
  | build (nodes edges : Nat)
deriving Repr, DecidableEq

structure Canvas where
  elements : Table Element
  texts : List TextBox
  history : List Event
  /-- how many shapes have been named automatically -/
  shapeCount : Nat
  theme : Theme
  layout : Layout
deriving Repr

/-- A connector was asked for between ids that do not both name shapes. -/
structure MissingEndpoint where
  source : String
  target : String
deriving Repr, DecidableEq

def MissingEndpoint.message (m : MissingEndpoint) : String :=
  "cannot connect " ++ m.source ++ " -> " ++ m.target ++ ": endpoint shape not found"

/-- A shape to add; what is left open comes from the theme and the layout, and the
kind is then a rectangle. -/
structure ShapeSpec where
  kind : Option ShapeKind := none
  text : String := ""
  id : Option String := none
  x : Option Float32 := none
  y : Option Float32 := none
  width : Option Float32 := none
  height : Option Float32 := none
  fillColor : Option String := none
  lineColor : Option String := none
  lineWidth : Option Float32 := none
  fontSize : Option Float32 := none
  textColor : Option String := none
  align : Option HAlign := none
  valign : Option VAlign := none

/-- A connector to add between two shapes; it has an arrow unless asked otherwise. -/
structure ConnectorSpec where
  source : String
  target : String
  head : Option ArrowHead := none
  lineColor : Option String := none
  lineWidth : Option Float32 := none

/-- A text box to add. -/
structure TextSpec where
  text : String := ""
  x : Option Float32 := none
  y : Option Float32 := none
  width : Option Float32 := none
  height : Option Float32 := none
  fontSize : Option Float32 := none
  bold : Option Bool := none
  textColor : Option String := none
  fillColor : Option String := none
  align : Option HAlign := none

/-- What a build made, and the endpoints of the edges that it left out. -/
structure BuildSummary where
  shapes : Nat
  connectors : Nat
  skipped : List (String × String)
deriving Repr, DecidableEq

/-- One entry of the flat view of a canvas. -/
structure View where
  id : String
  kind : ElementKind
  text : String
  rect : Rect
deriving Repr

/-- The id of the connector between two shapes. -/
def connectorId (source target : String) : String := "connector_" ++ source ++ "_" ++ target

namespace Canvas

def new (theme : Theme) (layout : Layout) : Canvas := ⟨∅, [], [], 0, theme, layout⟩

instance : Inhabited Canvas := ⟨new default default⟩

def size (c : Canvas) : Nat := c.elements.size

def isEmpty (c : Canvas) : Bool := c.elements.isEmpty

def contains (c : Canvas) (id : String) : Bool := c.elements.contains id

def get? (c : Canvas) (id : String) : Option Element := c.elements.get? id

/-- The shape with this id; a connector is none. -/
def shape? (c : Canvas) (id : String) : Option Shape := (c.get? id).bind Element.shape?

/-- Removes all elements; text boxes, history and the shape count stay. -/
def clear (c : Canvas) : Canvas := { c with elements := ∅ }

/-- The rectangle asked for, with the open parts from a default. -/
def rectOr (default : Rect) (x y width height : Option Float32) : Rect :=
  { x := x.getD default.x
    y := y.getD default.y
    width := clampSize (width.getD default.width)
    height := clampSize (height.getD default.height) }

/-- The style of a new shape. -/
def shapeStyle (c : Canvas) (spec : ShapeSpec) : ShapeStyle :=
  let base := c.theme.shape
  { fillColor := spec.fillColor.getD base.fillColor
    lineColor := spec.lineColor.getD base.lineColor
    lineWidth := spec.lineWidth.getD base.lineWidth
    fontSize := spec.fontSize.getD base.fontSize
    textColor := spec.textColor.getD base.textColor
    align := spec.align.getD base.align
    valign := spec.valign.getD base.valign }

/-- The id of a new shape: the one asked for, or the next automatic one. -/
def shapeId (c : Canvas) (spec : ShapeSpec) : String :=
  spec.id.getD ("shape_" ++ toString (c.shapeCount + 1))

/-- Adds a shape. Only a shape without an id of its own advances the count. -/
def addShape (c : Canvas) (spec : ShapeSpec) : Canvas :=
  let id := c.shapeId spec
  let kind := spec.kind.getD .rectangle
  let shape : Shape :=
    { id := id
      kind := kind
      text := spec.text
      rect := rectOr c.layout.defaultShape spec.x spec.y spec.width spec.height
      style := c.shapeStyle spec }
  { c with
    elements := c.elements.insert id (.shape shape)
    history := c.history ++ [.addShape id kind]
    shapeCount := if spec.id.isSome then c.shapeCount else c.shapeCount + 1 }

/-- The connector between two shapes. -/
def connectorBetween (c : Canvas) (spec : ConnectorSpec) (source target : Shape) : Connector :=
  let base := c.theme.connector
  { id := connectorId spec.source spec.target
    source := spec.source
    target := spec.target
    route := Route.between source.rect target.rect
    head := spec.head.getD .arrow
    style :=
      { lineColor := spec.lineColor.getD base.lineColor
        lineWidth := spec.lineWidth.getD base.lineWidth } }

/-- Adds a connector between two present shapes; nothing is created on demand. -/
def addConnector (c : Canvas) (spec : ConnectorSpec) : Except MissingEndpoint Canvas :=
  match c.shape? spec.source, c.shape? spec.target with
  | some source, some target =>
    let id := connectorId spec.source spec.target
    .ok { c with
      elements := c.elements.insert id (.connector (c.connectorBetween spec source target))
      history := c.history ++ [.addConnector id spec.source spec.target] }
  | _, _ => .error ⟨spec.source, spec.target⟩

/-- The text box that a canvas makes of a specification. -/
def textBox (c : Canvas) (spec : TextSpec) : TextBox :=
  let base := c.theme.text
  { text := spec.text
    rect := rectOr c.layout.textBox spec.x spec.y spec.width spec.height
    style :=
      { fontSize := spec.fontSize.getD base.fontSize
        bold := spec.bold.getD base.bold
        textColor := spec.textColor <|> base.textColor
        fillColor := spec.fillColor <|> base.fillColor
        align := spec.align <|> base.align } }

def addText (c : Canvas) (spec : TextSpec) : Canvas :=
  { c with
    texts := c.texts ++ [c.textBox spec]
    history := c.history ++ [.addText spec.text] }

/-- The shape that stands for a placed node. -/
def nodeSpec (icons : IconMap) (node : Node) (rect : Rect) : ShapeSpec :=
  { text := icons.labelFor node
    id := some node.id
    x := some rect.x
    y := some rect.y
    width := some rect.width
    height := some rect.height }

/-- The connector that stands for an edge. -/
def edgeSpec (e : Edge) : ConnectorSpec :=
  { source := e.source
    target := e.target
    head := some (if e.directed then .arrow else .line) }

/-- Adds the shapes of placed nodes in order. -/
def addNodes (icons : IconMap) : Canvas → List (Node × Rect) → Canvas
  | c, [] => c
  | c, (node, rect) :: rest => addNodes icons (c.addShape (nodeSpec icons node rect)) rest

/-- Adds the connectors of edges in order and says which edges had to be left out. -/
def addEdges : Canvas → List Edge → Canvas × List (String × String)
  | c, [] => (c, [])
  | c, e :: rest =>
    match c.addConnector (edgeSpec e) with
    | .ok c => addEdges c rest
    | .error _ =>
      let (c, skipped) := addEdges c rest
      (c, (e.source, e.target) :: skipped)

/-- Replaces the elements by one shape per node and one connector per edge. Edges
whose ends have no shape are left out. -/
def build (c : Canvas) (f : Flowchart) (icons : IconMap) : Canvas × BuildSummary :=
  let withNodes := addNodes icons c.clear (c.layout.place f)
  let (drawn, skipped) := addEdges withNodes f.edges
  ({ drawn with history := drawn.history ++ [.build f.nodes.size f.edges.length] },
    { shapes := f.nodes.size
      connectors := f.edges.length - skipped.length
      skipped := skipped })

/-- All elements in order: id, kind, text and box. -/
def views (c : Canvas) : List View :=
  c.elements.values.map fun e => ⟨e.id, e.kind, e.text, e.box⟩

end Canvas

end FlowchartSlides
