import FlowchartSlides.Json.Document
import FlowchartSlides.Slide.Canvas

/-!
# Parts of a slide as documents

The export of a canvas lists its elements in order with id, type, text and
position. Elements, text boxes and styles have documents of their own, which
the list of drawing primitives uses.
-/
namespace FlowchartSlides

open Json (Document)

def Rect.document (r : Rect) : Document :=
  .object [("x", .single r.x), ("y", .single r.y), ("width", .single r.width),
    ("height", .single r.height)]

def Route.document (r : Route) : Document :=
  .object [("anchorX", .single r.anchorX), ("anchorY", .single r.anchorY), ("dx", .single r.dx),
    ("dy", .single r.dy), ("flipH", .flag r.flipH), ("flipV", .flag r.flipV)]

def ShapeStyle.document (s : ShapeStyle) : Document :=
  .object [("fillColor", .text s.fillColor), ("lineColor", .text s.lineColor),
    ("lineWidth", .single s.lineWidth), ("fontSize", .single s.fontSize),
    ("textColor", .text s.textColor), ("align", .text s.align.name),
    ("valign", .text s.valign.name)]

def ConnectorStyle.document (s : ConnectorStyle) : Document :=
  .object [("lineColor", .text s.lineColor), ("lineWidth", .single s.lineWidth)]

def TextStyle.document (s : TextStyle) : Document :=
  .object [("fontSize", .single s.fontSize), ("bold", .flag s.bold),
    ("textColor", .ofText? s.textColor), ("fillColor", .ofText? s.fillColor),
    ("align", .ofText? (s.align.map HAlign.name))]

def Theme.document (t : Theme) : Document :=
  .object [("shape", t.shape.document), ("connector", t.connector.document),
    ("text", t.text.document), ("title", t.title.document)]

/-- The fields of a shape. -/
def Shape.fields (s : Shape) : List (String × Document) :=
  [("id", .text s.id), ("kind", .text s.kind.name), ("text", .text s.text),
    ("geometry", s.rect.document), ("style", s.style.document)]

/-- The fields of a connector. -/
def Connector.fields (c : Connector) : List (String × Document) :=
  [("id", .text c.id), ("from", .text c.source), ("to", .text c.target),
    ("geometry", c.route.document), ("arrow", .text c.head.name), ("style", c.style.document)]

def Element.fields : Element → List (String × Document)
  | shape s => s.fields
  | connector c => c.fields

/-- An element's fields after its kind, which is named by `tag`. -/
def Element.tagged (tag : String) (e : Element) : Document :=
  .object ((tag, .text e.kind.name) :: e.fields)

/-- The fields of a text box. -/
def TextBox.fields (t : TextBox) : List (String × Document) :=
  [("text", .text t.text), ("geometry", t.rect.document), ("style", t.style.document)]

/-- An element as the export lists it. -/
def View.exported (v : View) : Document :=
  .object [("id", .text v.id), ("type", .text v.kind.name), ("text", .text v.text),
    ("position", v.rect.document)]

namespace Canvas

/-- The export of a canvas. -/
def exported (c : Canvas) : Document := .object [("elements", .list (c.views.map View.exported))]

end Canvas

end FlowchartSlides
