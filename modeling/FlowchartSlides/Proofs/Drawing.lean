import FlowchartSlides.Proofs.Arrivals
import FlowchartSlides.Slide.Canvas

/-!
# What one operation draws

A shape is always drawn. A connector is drawn exactly when both of its ends name
shapes; it takes the place of whatever stood under its id, and an id that held a
shape then holds none. A connector looks at the rectangles of the two shapes and
at the theme alone.
-/
namespace FlowchartSlides

/-- The rectangle with zero for a width or a height that is not above zero, which also
takes the place of NaN. -/
def Rect.clamped (r : Rect) : Rect :=
  { r with
    width := if 0 < r.width then r.width else 0
    height := if 0 < r.height then r.height else 0 }

/-- The shape that stands for a node in a rectangle. -/
def Node.shape (icons : IconMap) (style : ShapeStyle) (rect : Rect) (node : Node) : Shape where
  id := node.id
  kind := .rectangle
  text := icons.labelFor node
  rect := rect.clamped
  style := style

/-- The source and the target of an edge. -/
def Edge.ends (e : Edge) : String × String := (e.source, e.target)

/-- The id of the connector that stands for an edge. -/
def Edge.connectorId (e : Edge) : String := FlowchartSlides.connectorId e.source e.target

/-- The connector that stands for an edge, where `rect` says where the shapes are. -/
def Edge.connector (style : ConnectorStyle) (rect : String → Rect) (e : Edge) : Connector where
  id := e.connectorId
  source := e.source
  target := e.target
  route := Route.between (rect e.source) (rect e.target)
  head := if e.directed then .arrow else .line
  style := style

namespace Canvas

variable {c c' : Canvas}

/-- Whether an id names a shape. -/
def hasShape (c : Canvas) (id : String) : Bool := (c.shape? id).isSome

/-- The rectangle of the shape with this id. -/
def rectOf (c : Canvas) (id : String) : Rect := ((c.shape? id).map Shape.rect).getD default

/-- The canvas with a connector under its id. -/
def draw (c : Canvas) (k : Connector) : Canvas :=
  { c with
    elements := c.elements.insert k.id (.connector k)
    history := c.history ++ [.addConnector k.id k.source k.target] }

/-- Connecting draws the connector between two present shapes. -/
theorem addConnector_eq_ok_iff {spec : ConnectorSpec} :
    c.addConnector spec = .ok c' ↔ ∃ source target, c.shape? spec.source = some source ∧
      c.shape? spec.target = some target ∧ c' = c.draw (c.connectorBetween spec source target) := by
  unfold addConnector
  split
  next source target hsource htarget =>
    simp only [hsource, htarget, Option.some.injEq, Except.ok.injEq]
    constructor
    · rintro rfl
      exact ⟨source, target, rfl, rfl, rfl⟩
    · rintro ⟨_, _, rfl, rfl, rfl⟩
      rfl
  next hnot =>
    constructor
    · intro h
      exact absurd h (by simp)
    · rintro ⟨source, target, hsource, htarget, -⟩
      exact absurd htarget (hnot source target hsource)

/-- Connecting fails when an end names no shape, and names both ends. -/
theorem addConnector_eq_error_iff {spec : ConnectorSpec} {m : MissingEndpoint} :
    c.addConnector spec = .error m ↔ m = ⟨spec.source, spec.target⟩ ∧
      (c.shape? spec.source = none ∨ c.shape? spec.target = none) := by
  unfold addConnector
  split
  next source target hsource htarget => simp [hsource, htarget]
  next hnot =>
    have hnone : c.shape? spec.source = none ∨ c.shape? spec.target = none := by
      cases hsource : c.shape? spec.source with
      | none => exact Or.inl rfl
      | some source =>
        cases htarget : c.shape? spec.target with
        | none => exact Or.inr rfl
        | some target => exact absurd htarget (hnot source target hsource)
    simp only [Except.error.injEq, hnone, and_true]
    exact eq_comm

theorem shape?_draw (c : Canvas) (k : Connector) (id : String) :
    (c.draw k).shape? id = if id = k.id then none else c.shape? id := by
  simp only [shape?, get?, draw, Table.get?_insert]
  split
  next => rfl
  next => rfl

theorem hasShape_draw (c : Canvas) (k : Connector) (id : String) :
    (c.draw k).hasShape id = (c.hasShape id && id != k.id) := by
  rw [hasShape, shape?_draw]
  by_cases h : id = k.id
  · simp [h]
  · simp [h, hasShape]

theorem rectOf_draw {k : Connector} {id : String} (h : id ≠ k.id) :
    (c.draw k).rectOf id = c.rectOf id := by
  rw [rectOf, shape?_draw, if_neg h, rectOf]

/-- An edge between two shapes is drawn. -/
theorem addConnector_edgeSpec {e : Edge} (hsource : c.hasShape e.source)
    (htarget : c.hasShape e.target) :
    c.addConnector (edgeSpec e) = .ok (c.draw (e.connector c.theme.connector c.rectOf)) := by
  obtain ⟨source, hs⟩ := Option.isSome_iff_exists.mp hsource
  obtain ⟨target, ht⟩ := Option.isSome_iff_exists.mp htarget
  have hdraw : c.addConnector (edgeSpec e) =
      .ok (c.draw (c.connectorBetween (edgeSpec e) source target)) :=
    addConnector_eq_ok_iff.mpr ⟨source, target, hs, ht, rfl⟩
  have hconnector : c.connectorBetween (edgeSpec e) source target =
      e.connector c.theme.connector c.rectOf := by
    simp only [Edge.connector, rectOf, hs, ht, Option.map_some, Option.getD_some]
    rfl
  rw [hdraw, hconnector]

theorem addConnector_edgeSpec_error {e : Edge}
    (h : (c.hasShape e.source && c.hasShape e.target) = false) :
    c.addConnector (edgeSpec e) = .error ⟨e.source, e.target⟩ := by
  rw [Bool.and_eq_false_iff] at h
  have hnone : ∀ id, c.hasShape id = false → c.shape? id = none :=
    fun _ hid => Option.isSome_eq_false_iff.mp hid |> Option.isNone_iff_eq_none.mp
  exact addConnector_eq_error_iff.mpr ⟨rfl, h.imp (hnone _) (hnone _)⟩

/-- Adding nodes writes one shape after the other and logs each. -/
theorem addNodes_eq (icons : IconMap) (c : Canvas) (placed : List (Node × Rect)) :
    addNodes icons c placed = { c with
      elements := c.elements.insertAll
        (placed.map fun p => (p.1.id, .shape (p.1.shape icons c.theme.shape p.2)))
      history := c.history ++ placed.map fun p => .addShape p.1.id .rectangle } := by
  induction placed generalizing c with
  | nil => simp [addNodes, Table.insertAll]
  | cons p placed ih =>
    rw [addNodes, ih]
    simp only [addShape, nodeSpec, shapeId, Option.getD_some, Option.getD_none, Option.isSome_some,
      if_true, List.map_cons, List.append_assoc]
    rfl

end Canvas

end FlowchartSlides
