import FlowchartSlides.Proofs.Drawing
import FlowchartSlides.Proofs.Operations

/-!
# A build forgets what was there

What a build draws and reports depends on the flowchart, the icons, the theme and
the layout. It begins on a canvas without elements, and from there on two builds
see the same scene at every step: the shapes that an edge looks for, and those
whose ids connectors have taken, are the same in both. Text boxes and the count of
automatic ids are neither read nor written.
-/
namespace FlowchartSlides.Canvas

variable {c d : Canvas}

/-- Two canvases with the same elements, that draw in the same way. Their texts, their
histories and their counts of shapes may differ. -/
structure SameScene (c d : Canvas) : Prop where
  elements : c.elements = d.elements
  theme : c.theme = d.theme
  layout : c.layout = d.layout

namespace SameScene

theorem shape? (h : SameScene c d) (id : String) : c.shape? id = d.shape? id := by
  rw [Canvas.shape?, get?, h.elements, Canvas.shape?, get?]

/-- A shape with an id of its own is written the same way on both. -/
theorem addShape (h : SameScene c d) {spec : ShapeSpec} {id : String} (hid : spec.id = some id) :
    SameScene (c.addShape spec) (d.addShape spec) := by
  have hshapeId : c.shapeId spec = d.shapeId spec := by
    rw [shapeId, hid, shapeId, hid, Option.getD_some, Option.getD_some]
  have hstyle : c.shapeStyle spec = d.shapeStyle spec := by
    rw [shapeStyle, h.theme, shapeStyle]
  refine ⟨?_, h.theme, h.layout⟩
  simp only [Canvas.addShape, h.elements, h.layout, hshapeId, hstyle]

theorem draw (h : SameScene c d) (k : Connector) : SameScene (c.draw k) (d.draw k) :=
  ⟨congrArg (·.insert k.id (.connector k)) h.elements, h.theme, h.layout⟩

/-- A connector is refused on both, or drawn on both. -/
theorem addConnector (h : SameScene c d) (spec : ConnectorSpec) :
    (∃ m, c.addConnector spec = .error m ∧ d.addConnector spec = .error m) ∨
      ∃ c' d', c.addConnector spec = .ok c' ∧ d.addConnector spec = .ok d' ∧ SameScene c' d' := by
  cases hc : c.addConnector spec with
  | error m =>
    obtain ⟨hm, hnone⟩ := addConnector_eq_error_iff.mp hc
    rw [h.shape?, h.shape?] at hnone
    exact Or.inl ⟨m, rfl, addConnector_eq_error_iff.mpr ⟨hm, hnone⟩⟩
  | ok c' =>
    obtain ⟨source, target, hsource, htarget, rfl⟩ := addConnector_eq_ok_iff.mp hc
    rw [h.shape?] at hsource htarget
    have hsame : c.connectorBetween spec source target = d.connectorBetween spec source target := by
      rw [connectorBetween, h.theme, connectorBetween]
    have hd := addConnector_eq_ok_iff.mpr ⟨source, target, hsource, htarget, rfl⟩
    exact Or.inr ⟨_, _, rfl, hd, hsame ▸ h.draw _⟩

theorem addNodes (h : SameScene c d) (icons : IconMap) (placed : List (Node × Rect)) :
    SameScene (Canvas.addNodes icons c placed) (Canvas.addNodes icons d placed) := by
  induction placed generalizing c d with
  | nil => exact h
  | cons p placed ih =>
    have hid : (nodeSpec icons p.1 p.2).id = some p.1.id := rfl
    exact ih (h.addShape hid)

/-- Edges are drawn on both or left out on both. -/
theorem addEdges (h : SameScene c d) (es : List Edge) :
    SameScene (Canvas.addEdges c es).1 (Canvas.addEdges d es).1 ∧
      (Canvas.addEdges c es).2 = (Canvas.addEdges d es).2 := by
  induction es generalizing c d with
  | nil => exact ⟨h, rfl⟩
  | cons e es ih =>
    rw [Canvas.addEdges, Canvas.addEdges]
    rcases h.addConnector (edgeSpec e) with ⟨m, hc, hd⟩ | ⟨c', d', hc, hd, h'⟩
    · rw [hc, hd]
      obtain ⟨hscene, hskipped⟩ := ih h
      exact ⟨hscene, congrArg ((e.source, e.target) :: ·) hskipped⟩
    · rw [hc, hd]
      exact ih h'

end SameScene

/-- Builds on canvases that draw in the same way end in the same scene, with the same
summary. -/
theorem sameScene_build (htheme : c.theme = d.theme) (hlayout : c.layout = d.layout)
    (f : Flowchart) (icons : IconMap) :
    SameScene (c.build f icons).1 (d.build f icons).1 ∧ (c.build f icons).2 = (d.build f icons).2 := by
  have hcleared : SameScene c.clear d.clear := ⟨rfl, htheme, hlayout⟩
  have hnodes := hcleared.addNodes icons (c.layout.place f)
  obtain ⟨hedges, hskipped⟩ := hnodes.addEdges f.edges
  constructor
  · simp only [build, ← hlayout]
    exact ⟨hedges.elements, hedges.theme, hedges.layout⟩
  · simp only [build, ← hlayout, hskipped]

/-- From a canvas to one with the same text boxes, the same count of automatic ids and
the same ways to draw. -/
structure Spares (c d : Canvas) : Prop where
  texts : d.texts = c.texts
  shapeCount : d.shapeCount = c.shapeCount
  theme : d.theme = c.theme
  layout : d.layout = c.layout

theorem spares_refl (c : Canvas) : Spares c c := ⟨rfl, rfl, rfl, rfl⟩

theorem Spares.trans {e : Canvas} (h : Spares c d) (h' : Spares d e) : Spares c e :=
  ⟨h'.texts.trans h.texts, h'.shapeCount.trans h.shapeCount, h'.theme.trans h.theme,
    h'.layout.trans h.layout⟩

theorem spares_addConnector {spec : ConnectorSpec} (h : c.addConnector spec = .ok d) :
    Spares c d := by
  obtain ⟨_, _, -, -, rfl⟩ := addConnector_eq_ok_iff.mp h
  exact ⟨rfl, rfl, rfl, rfl⟩

theorem spares_addNodes (icons : IconMap) (c : Canvas) (placed : List (Node × Rect)) :
    Spares c (addNodes icons c placed) := by
  rw [addNodes_eq]
  exact ⟨rfl, rfl, rfl, rfl⟩

theorem spares_addEdges (c : Canvas) (es : List Edge) : Spares c (addEdges c es).1 := by
  induction es generalizing c with
  | nil => exact spares_refl c
  | cons e es ih =>
    rw [addEdges]
    split
    next c' hadd => exact (spares_addConnector hadd).trans (ih c')
    next => exact ih c

/-- Nodes bring ids of their own, so a build takes no automatic one. -/
theorem spares_build (c : Canvas) (f : Flowchart) (icons : IconMap) :
    Spares c (c.build f icons).1 := by
  have hcleared : Spares c c.clear := ⟨rfl, rfl, rfl, rfl⟩
  have hnodes := hcleared.trans (spares_addNodes icons c.clear (c.layout.place f))
  have hedges := hnodes.trans (spares_addEdges _ f.edges)
  exact ⟨hedges.texts, hedges.shapeCount, hedges.theme, hedges.layout⟩

/-- Nothing that is asked of a canvas changes its theme or its layout. -/
theorem theme_layout_performAll (c : Canvas) (ops : List Operation) :
    (c.performAll ops).theme = c.theme ∧ (c.performAll ops).layout = c.layout := by
  refine keep_of_performAll (P := fun b => b.theme = c.theme ∧ b.layout = c.layout)
    (fun _ h => h) (fun b b' hstep h => ?_) ops ⟨rfl, rfl⟩
  cases hstep <;> exact h

/-- Two canvases with one theme and one layout, whatever has been done to them, have the
same elements in the same order after a build of the same flowchart, and the build
tells the same of it. Each keeps its own text boxes and its own next automatic id.
So a second build of a flowchart changes no element. -/
theorem build_forgets (htheme : c.theme = d.theme) (hlayout : c.layout = d.layout)
    (f : Flowchart) (icons : IconMap) :
    (c.build f icons).2 = (d.build f icons).2 ∧
      (c.build f icons).1.elements = (d.build f icons).1.elements ∧
      (∀ b : Canvas, (b.build f icons).1.texts = b.texts ∧
        (b.build f icons).1.shapeCount = b.shapeCount ∧
        (b.build f icons).1.shapeId {} = b.shapeId {} ∧
        ((b.build f icons).1.build f icons).1.elements = (b.build f icons).1.elements) := by
  obtain ⟨hscene, hsummary⟩ := sameScene_build htheme hlayout f icons
  refine ⟨hsummary, hscene.elements, fun b => ?_⟩
  have hspares := spares_build b f icons
  have htwice := (sameScene_build hspares.theme hspares.layout f icons).1
  refine ⟨hspares.texts, hspares.shapeCount, ?_, htwice.elements⟩
  rw [shapeId, hspares.shapeCount, shapeId]

/-- A new canvas and one with shapes, a connector, a text box and an automatic id, for a
flowchart in which a connector takes the id of a node and an edge ends nowhere. -/
theorem build_forgets_shared_id :
    let f := ((Flowchart.empty.addEdge ⟨"A", "B", none, .solid, true⟩).addEdge
      ⟨"connector_A_B", "A", none, .thick, true⟩).addLooseEdge ⟨"B", "Ghost", none, .solid, false⟩
    let c := new default default
    let d := c.performAll [.addShape { id := some "B", kind := some .ellipse }, .addShape {},
      .addShape { id := some "Ghost" }, .addConnector { source := "B", target := "shape_1" },
      .addText { text := "note" }]
    c.theme = d.theme ∧ c.layout = d.layout ∧
      d.elements.keys = ["B", "shape_1", "Ghost", "connector_B_shape_1"] ∧
      (c.build f ∅).2 = ⟨3, 1, [("connector_A_B", "A"), ("B", "Ghost")]⟩ ∧
      (d.build f ∅).2 = (c.build f ∅).2 ∧
      (d.build f ∅).1.elements = (c.build f ∅).1.elements ∧
      (d.build f ∅).1.shapeId {} = "shape_2" := by
  intro f c d
  obtain ⟨htheme, hlayout⟩ : d.theme = c.theme ∧ d.layout = c.layout :=
    theme_layout_performAll c _
  obtain ⟨hsummary, helements, hkept⟩ := build_forgets htheme.symm hlayout.symm f ∅
  exact ⟨htheme.symm, hlayout.symm, by decide, by decide, hsummary.symm, helements.symm,
    (hkept d).2.2.1.trans (by decide)⟩

end FlowchartSlides.Canvas
