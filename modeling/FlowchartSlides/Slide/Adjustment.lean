import FlowchartSlides.Slide.Notice

/-!
# Adjustments of a canvas

Adjustments run in order and are not taken back: when one fails, those before
it stay carried out. Commands that edit an element and name an unknown id do
nothing; the id is reported.
-/
namespace FlowchartSlides

/-- A command that changes a canvas after it has been built. -/
inductive Adjustment where
  | moveNode (id : String) (x y : Float32)
  | resizeNode (id : String) (width height : Float32)
  | changeNodeStyle (id : String) (style : Restyling)
  | addNode (spec : ShapeSpec)
  | addConnector (spec : ConnectorSpec)

namespace Adjustment

def name : Adjustment → String
  | moveNode .. => "moveNode"
  | resizeNode .. => "resizeNode"
  | changeNodeStyle .. => "changeNodeStyle"
  | addNode _ => "addNode"
  | addConnector _ => "addConnector"

end Adjustment

/-- What one command did: the canvas after it, its notices, and the id that it
named in vain. -/
structure AdjustStep where
  canvas : Canvas
  notices : List Notice
  unknown : Option String

/-- The commands that found their target, and the ids of the others in order. -/
structure AdjustReport where
  applied : Nat
  unknownIds : List String
deriving Repr, DecidableEq

namespace AdjustReport

def empty : AdjustReport := ⟨0, []⟩

/-- The report with one more command before the others. -/
def prepend (unknown : Option String) (r : AdjustReport) : AdjustReport :=
  match unknown with
  | none => { r with applied := r.applied + 1 }
  | some id => { r with unknownIds := id :: r.unknownIds }

end AdjustReport

/-- How a list of commands ended: the canvas and the notices are there also when
a command failed. -/
structure AdjustRun where
  canvas : Canvas
  notices : List Notice
  outcome : Except MissingEndpoint AdjustReport

namespace Canvas

/-- Edits the element with this id, or reports the id. -/
def edit (c : Canvas) (command id : String) (notices : List Notice) (f : Element → Element) :
    AdjustStep :=
  if c.contains id then ⟨{ c with elements := c.elements.modify id f }, notices, none⟩
  else ⟨c, [.unknownTarget command id], some id⟩

/-- Carries out one command. -/
def adjustOne (c : Canvas) (a : Adjustment) : Except MissingEndpoint AdjustStep :=
  match a with
  | .moveNode id x y => .ok (c.edit a.name id [] (Element.moveTo x y))
  | .resizeNode id width height =>
    let notices := if width < 0 ∨ height < 0 then [.negativeSize id width height] else []
    .ok (c.edit a.name id notices (Element.resize width height))
  | .changeNodeStyle id style => .ok (c.edit a.name id [] style.apply)
  | .addNode spec => .ok ⟨c.addShape spec, [], none⟩
  | .addConnector spec => (c.addConnector spec).map (⟨·, [], none⟩)

/-- Carries out commands in order up to the first that fails. -/
def adjust : Canvas → List Adjustment → AdjustRun
  | c, [] => ⟨c, [], .ok .empty⟩
  | c, a :: rest =>
    match c.adjustOne a with
    | .error e => ⟨c, [], .error e⟩
    | .ok step =>
      let run := adjust step.canvas rest
      ⟨run.canvas, step.notices ++ run.notices, run.outcome.map (·.prepend step.unknown)⟩

end Canvas

end FlowchartSlides
