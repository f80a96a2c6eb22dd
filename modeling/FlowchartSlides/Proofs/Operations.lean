import FlowchartSlides.Proofs.CommandLists
import Mathlib.Logic.Relation

/-!
# Runs of operations

What a caller can ask of a canvas comes down to a few small steps: writing a
shape, drawing a connector between two shapes, adding a text box, editing one
element, and noting a build. `steps_perform` cuts every operation into such
steps, also the operations that fail, so that what each step preserves holds
after any run. Only a build and `clear` begin by forgetting the elements.
-/
namespace FlowchartSlides

/-- What a caller can ask of a canvas. -/
inductive Operation where
  | addShape (spec : ShapeSpec)
  | addConnector (spec : ConnectorSpec)
  | addText (spec : TextSpec)
  | build (f : Flowchart) (icons : IconMap)
  | clear
  | adjust (commands : List Adjustment)

/-- Whether an operation forgets the elements that were there. -/
def Operation.resets : Operation → Bool
  | build .. | clear => true
  | _ => false

namespace Canvas

/-- The canvas after an operation. A refused connector leaves it as it was, and
a list of adjustments what the commands before the failing one have made of it. -/
def perform (c : Canvas) : Operation → Canvas
  | .addShape spec => c.addShape spec
  | .addConnector spec =>
    match c.addConnector spec with
    | .ok c' => c'
    | .error _ => c
  | .addText spec => c.addText spec
  | .build f icons => (c.build f icons).1
  | .clear => c.clear
  | .adjust commands => (c.adjust commands).canvas

def performAll (c : Canvas) (ops : List Operation) : Canvas := ops.foldl perform c

/-- The canvas with one element changed. -/
def amend (c : Canvas) (id : String) (f : Element → Element) : Canvas :=
  { c with elements := c.elements.modify id f }

/-- The canvas with a build in its history. -/
def noteBuild (c : Canvas) (f : Flowchart) : Canvas :=
  { c with history := c.history ++ [.build f.nodes.size f.edges.length] }

end Canvas

/-- The ways in which a command can edit an element. -/
inductive Element.Edit : (Element → Element) → Prop
  | move (x y : Float32) : Edit (Element.moveTo x y)
  | resize (width height : Float32) : Edit (Element.resize width height)
  | restyle (style : Restyling) : Edit style.apply

/-- One small step of an operation. -/
inductive Canvas.Step : Canvas → Canvas → Prop
  | shape (c : Canvas) (spec : ShapeSpec) : Step c (c.addShape spec)
  | connector (c : Canvas) (spec : ConnectorSpec) {source target : Shape}
      (hsource : c.shape? spec.source = some source)
      (htarget : c.shape? spec.target = some target) :
    Step c (c.draw (c.connectorBetween spec source target))
  | text (c : Canvas) (spec : TextSpec) : Step c (c.addText spec)
  | edit (c : Canvas) (id : String) {f : Element → Element} (hf : Element.Edit f) :
    Step c (c.amend id f)
  | built (c : Canvas) (f : Flowchart) : Step c (c.noteBuild f)

namespace Canvas

/-- Small steps one after the other. -/
abbrev Steps : Canvas → Canvas → Prop := Relation.ReflTransGen Step

variable {c c' : Canvas}

theorem step_of_addConnector {spec : ConnectorSpec} (h : c.addConnector spec = .ok c') :
    Step c c' := by
  obtain ⟨source, target, hsource, htarget, rfl⟩ := addConnector_eq_ok_iff.mp h
  exact .connector c spec hsource htarget

theorem steps_addNodes (icons : IconMap) (c : Canvas) (placed : List (Node × Rect)) :
    Steps c (addNodes icons c placed) := by
  induction placed generalizing c with
  | nil => exact .refl
  | cons p placed ih => exact .head (.shape c (nodeSpec icons p.1 p.2)) (ih _)

theorem steps_addEdges (c : Canvas) (es : List Edge) : Steps c (addEdges c es).1 := by
  induction es generalizing c with
  | nil => exact .refl
  | cons e es ih =>
    rw [addEdges]
    split
    next c' hadd => exact .head (step_of_addConnector hadd) (ih c')
    next => exact ih c

/-- A build is a run of small steps from the cleared canvas. -/
theorem steps_build (c : Canvas) (f : Flowchart) (icons : IconMap) :
    Steps c.clear (c.build f icons).1 :=
  ((steps_addNodes icons c.clear (c.layout.place f)).trans (steps_addEdges _ f.edges)).tail
    (.built _ f)

/-- Editing an absent element does nothing. -/
theorem steps_edit (c : Canvas) (command id : String) (notices : List Notice)
    {f : Element → Element} (hf : Element.Edit f) :
    Steps c (c.edit command id notices f).canvas := by
  rw [edit]
  split
  next => exact .single (.edit c id hf)
  next => exact .refl

theorem steps_adjustOne {a : Adjustment} {step : AdjustStep} (h : c.adjustOne a = .ok step) :
    Steps c step.canvas := by
  cases a with
  | moveNode id x y =>
    obtain rfl := Except.ok.inj h
    exact steps_edit c _ id _ (.move x y)
  | resizeNode id width height =>
    obtain rfl := Except.ok.inj h
    exact steps_edit c _ id _ (.resize width height)
  | changeNodeStyle id style =>
    obtain rfl := Except.ok.inj h
    exact steps_edit c _ id _ (.restyle style)
  | addNode spec =>
    obtain rfl := Except.ok.inj h
    exact .single (.shape c spec)
  | addConnector spec =>
    obtain ⟨c', hadd, rfl⟩ := exists_of_adjustOne_addConnector h
    exact .single (step_of_addConnector hadd)

/-- Commands that were carried out before one failed are steps all the same. -/
theorem steps_adjust (c : Canvas) (commands : List Adjustment) :
    Steps c (c.adjust commands).canvas := by
  induction commands generalizing c with
  | nil => exact .refl
  | cons a commands ih =>
    rw [adjust]
    split
    next => exact .refl
    next step hstep => exact (steps_adjustOne hstep).trans (ih step.canvas)

/-- The canvas on which the steps of an operation begin. -/
def base (c : Canvas) (op : Operation) : Canvas := if op.resets then c.clear else c

/-- Every operation, failed or not, is a run of small steps. -/
theorem steps_perform (c : Canvas) (op : Operation) : Steps (c.base op) (c.perform op) := by
  cases op with
  | addShape spec => exact .single (.shape c spec)
  | addConnector spec =>
    rw [perform]
    split
    next c' hadd => exact .single (step_of_addConnector hadd)
    next => exact .refl
  | addText spec => exact .single (.text c spec)
  | build f icons => exact steps_build c f icons
  | clear => exact .refl
  | adjust commands => exact steps_adjust c commands

/-- What every small step keeps, a run of them keeps. -/
theorem keep_of_steps {P : Canvas → Prop} (hstep : ∀ c c', Step c c' → P c → P c')
    (h : Steps c c') (hc : P c) : P c' := by
  induction h with
  | refl => exact hc
  | tail _ hlast ih => exact hstep _ _ hlast ih

/-- What clearing and every small step keep, every run of operations keeps. -/
theorem keep_of_performAll {P : Canvas → Prop} (hclear : ∀ c, P c → P c.clear)
    (hstep : ∀ c c', Step c c' → P c → P c') (ops : List Operation) (hc : P c) :
    P (c.performAll ops) := by
  induction ops generalizing c with
  | nil => exact hc
  | cons op ops ih =>
    have hbase : P (c.base op) := by
      rw [base]
      split
      next => exact hclear c hc
      next => exact hc
    exact ih (keep_of_steps hstep (steps_perform c op) hbase)

end Canvas

end FlowchartSlides
