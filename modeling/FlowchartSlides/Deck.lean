import FlowchartSlides.Flowchart.Reading
import FlowchartSlides.Icons.Merge
import FlowchartSlides.Settings.Basic
import FlowchartSlides.Slide.Export
import FlowchartSlides.Slide.Notice

/-!
# Decks of slides

A deck is a list of slides, each with a canvas and perhaps a title. The
presentation of a draft has a slide for its summary and one for its flowchart.
What a writer of presentations receives are the drawing primitives of each
slide: its title, its texts and its elements, from back to front.
-/
namespace FlowchartSlides

open Json (Document)

structure Slide where
  title : Option String
  canvas : Canvas

/-- An instruction to draw one thing. -/
inductive Primitive where
  | title (text : String) (x y : Float32) (style : TextStyle)
  | text (box : TextBox)
  | element (e : Element)

namespace Primitive

def document : Primitive → Document
  | title heading x y style =>
    .object [("primitive", .text "title"), ("text", .text heading), ("x", .single x),
      ("y", .single y), ("style", style.document)]
  | text box => .object (("primitive", .text "text") :: box.fields)
  | element e => e.tagged "primitive"

end Primitive

namespace Slide

/-- The title, the texts and the elements of a slide in drawing order. -/
def primitives (s : Slide) : List Primitive :=
  let layout := s.canvas.layout
  let title := s.title.toList.map fun text =>
    .title text layout.titleX layout.titleY s.canvas.theme.title
  title ++ s.canvas.texts.map .text ++ s.canvas.elements.values.map .element

end Slide

structure Deck where
  slides : List Slide
  settings : Settings

/-- The title of the slide with the summary. -/
def summaryTitle : String := "Flowchart Presentation"

/-- The title of the slide with the flowchart. -/
def flowchartTitle : String := "Flowchart"

/-- The summary of a draft that has none. -/
def summaryPlaceholder : String := "Generated Flowchart"

def Slide.isFlowchart (s : Slide) : Bool := s.title == some flowchartTitle

/-- The font size of a summary. -/
def summaryFontSize : Float32 := 14

/-- A fresh canvas with the flowchart that a text describes, and the notices of
its build. -/
def Canvas.ofFlowchart (source : String) (icons : IconMap) (settings : Settings) :
    Canvas × List Notice :=
  let (canvas, summary) :=
    (Canvas.new settings.theme settings.layout).build (Flowchart.ofText source) icons
  (canvas, summary.notices)

namespace Deck

def new (settings : Settings) : Deck := ⟨[], settings⟩

/-- A slide with an empty canvas; an empty title is none. -/
def blankSlide (d : Deck) (title : String) : Slide :=
  { title := if title.isEmpty then none else some title
    canvas := Canvas.new d.settings.theme d.settings.layout }

def addSlide (d : Deck) (s : Slide) : Deck := { d with slides := d.slides ++ [s] }

/-- The canvas of the last flowchart slide. -/
def flowchart? (d : Deck) : Option Canvas :=
  (d.slides.reverse.find? Slide.isFlowchart).map (·.canvas)

/-- Puts a canvas on the first flowchart slide of a list. -/
def putCanvas (c : Canvas) : List Slide → List Slide
  | [] => []
  | s :: ss => if Slide.isFlowchart s then { s with canvas := c } :: ss else s :: putCanvas c ss

/-- Puts a canvas on the last flowchart slide; without one nothing changes. -/
def setFlowchart (d : Deck) (c : Canvas) : Deck :=
  { d with slides := (putCanvas c d.slides.reverse).reverse }

/-- The summary that is shown for a draft. -/
def shownSummary (summary : String) : String :=
  if (Text.trimmed summary).isEmpty then summaryPlaceholder else summary

/-- The text box of the summary slide. -/
def summarySpec (settings : Settings) (summary : String) : TextSpec :=
  let box := settings.layout.textBox
  { text := shownSummary summary
    x := some box.x
    y := some box.y
    width := some box.width
    height := some box.height
    fontSize := some summaryFontSize }

/-- The presentation of a draft: a summary slide and a flowchart slide, and the
notices of the build. Icons are merged into the flowchart text first, so the
shapes get no second icon. -/
def ofDraft (draft : FlowchartDraft) (icons : IconMap) (settings : Settings) :
    Deck × List Notice :=
  let deck := new settings
  let first := deck.blankSlide summaryTitle
  let first := { first with canvas := first.canvas.addText (summarySpec settings draft.summary) }
  let second := deck.blankSlide flowchartTitle
  let source := icons.mergeInto draft.mermaid
  let (canvas, summary) := second.canvas.build (Flowchart.ofText source) ∅
  ((deck.addSlide first).addSlide { second with canvas := canvas }, summary.notices)

/-- The primitives of each slide. -/
def primitives (d : Deck) : List (List Primitive) := d.slides.map Slide.primitives

/-- The primitives of each slide as one document. -/
def document (d : Deck) : Document :=
  .list (d.primitives.map fun ps => .list (ps.map Primitive.document))

end Deck

end FlowchartSlides
