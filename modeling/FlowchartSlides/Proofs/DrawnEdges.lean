import FlowchartSlides.Proofs.Drawing

/-!
# Which edges are drawn

While edges are drawn, a canvas matters through the ids of its shapes alone.
`drawn` and `leftOut` follow these ids: an edge is drawn when both of its ends
hold shapes, and its connector then takes its id away from any shape. An id
never gets a shape back, so an edge whose ends hold shapes in the end has been
drawn, wherever it stood.
-/
namespace FlowchartSlides

/-- The edges that are drawn, where `held` says which ids hold shapes. -/
def drawn (held : String → Bool) : List Edge → List Edge
  | [] => []
  | e :: es =>
    if held e.source && held e.target then
      e :: drawn (fun id => held id && id != e.connectorId) es
    else drawn held es

/-- The ends of the edges that are left out. -/
def leftOut (held : String → Bool) : List Edge → List (String × String)
  | [] => []
  | e :: es =>
    if held e.source && held e.target then leftOut (fun id => held id && id != e.connectorId) es
    else e.ends :: leftOut held es

/-- Whether an id holds a shape after edges have been drawn. -/
def heldAfter (held : String → Bool) (es : List Edge) (id : String) : Bool :=
  held id && (drawn held es).all fun e => id != e.connectorId

section Drawn

variable {held : String → Bool} {e : Edge} {es : List Edge}

theorem drawn_sublist (held : String → Bool) (es : List Edge) : (drawn held es).Sublist es := by
  induction es generalizing held with
  | nil => exact List.Sublist.refl []
  | cons e es ih =>
    rw [drawn]
    split
    next => exact (ih _).cons_cons e
    next => exact (ih held).cons e

theorem held_of_mem_drawn (h : e ∈ drawn held es) : held e.source ∧ held e.target := by
  induction es generalizing held with
  | nil => exact absurd h List.not_mem_nil
  | cons d es ih =>
    rw [drawn] at h
    split at h
    next hd =>
      rcases List.mem_cons.mp h with rfl | h
      · exact Bool.and_eq_true_iff.mp hd
      · obtain ⟨hsource, htarget⟩ := ih h
        exact ⟨(Bool.and_eq_true_iff.mp hsource).1, (Bool.and_eq_true_iff.mp htarget).1⟩
    next => exact ih h

theorem heldAfter_eq_true_iff {id : String} :
    heldAfter held es id = true ↔ held id = true ∧ ∀ e ∈ drawn held es, id ≠ e.connectorId := by
  simp [heldAfter]

theorem heldAfter_cons_of_held (h : (held e.source && held e.target) = true) :
    heldAfter held (e :: es) = heldAfter (fun id => held id && id != e.connectorId) es := by
  funext id
  rw [heldAfter, drawn, if_pos h, List.all_cons, ← Bool.and_assoc]
  rfl

theorem heldAfter_cons_of_not_held (h : ¬(held e.source && held e.target) = true) :
    heldAfter held (e :: es) = heldAfter held es := by
  funext id
  rw [heldAfter, drawn, if_neg h, heldAfter]

theorem drawn_append (held : String → Bool) (es fs : List Edge) :
    drawn held (es ++ fs) = drawn held es ++ drawn (heldAfter held es) fs := by
  induction es generalizing held with
  | nil =>
    have hsame : heldAfter held [] = held := by
      funext id
      simp [heldAfter, drawn]
    rw [hsame]
    rfl
  | cons e es ih =>
    rw [List.cons_append, drawn, drawn]
    by_cases h : (held e.source && held e.target) = true
    · rw [if_pos h, if_pos h, ih, heldAfter_cons_of_held h, List.cons_append]
    · rw [if_neg h, if_neg h, ih, heldAfter_cons_of_not_held h]

/-- One more edge is drawn when its ends still hold shapes. -/
theorem mem_drawn_concat {d : Edge} :
    d ∈ drawn held (es ++ [e]) ↔ d ∈ drawn held es ∨
      d = e ∧ heldAfter held es e.source = true ∧ heldAfter held es e.target = true := by
  rw [drawn_append, List.mem_append, drawn, drawn, drawn, ← Bool.and_eq_true_iff]
  cases heldAfter held es e.source && heldAfter held es e.target with
  | true => rw [if_pos rfl, List.mem_singleton, and_iff_left rfl]
  | false => simp

/-- An edge whose ends hold shapes in the end has been drawn. -/
theorem mem_drawn_of_heldAfter (h : e ∈ es) (hsource : heldAfter held es e.source = true)
    (htarget : heldAfter held es e.target = true) : e ∈ drawn held es := by
  induction es generalizing held with
  | nil => exact absurd h List.not_mem_nil
  | cons d es ih =>
    rw [drawn]
    by_cases hd : (held d.source && held d.target) = true
    · rw [heldAfter_cons_of_held hd] at hsource htarget
      rw [if_pos hd]
      rcases List.mem_cons.mp h with rfl | h
      · exact List.mem_cons_self
      · exact List.mem_cons_of_mem d (ih h hsource htarget)
    · rw [heldAfter_cons_of_not_held hd] at hsource htarget
      rw [if_neg hd]
      rcases List.mem_cons.mp h with rfl | h
      · -- its ends hold shapes after the other edges, so they held them before
        have hends : (held e.source && held e.target) = true :=
          Bool.and_eq_true_iff.mpr
            ⟨(heldAfter_eq_true_iff.mp hsource).1, (heldAfter_eq_true_iff.mp htarget).1⟩
        exact absurd hends hd
      · exact ih h hsource htarget

theorem held_of_not_held {id : String} (h : held id = false) :
    (fun i => held i && i != id) = held := by
  funext i
  by_cases hi : i = id
  · rw [hi, h, Bool.false_and]
  · rw [bne_iff_ne.mpr hi, Bool.and_true]

/-- Connectors that take no shape's id leave every edge between shapes drawn. -/
theorem drawn_eq_filter (h : ∀ e ∈ es, held e.connectorId = false) :
    drawn held es = es.filter fun e => held e.source && held e.target := by
  induction es with
  | nil => rfl
  | cons e es ih =>
    have hes := ih fun d hd => h d (List.mem_cons_of_mem e hd)
    rw [drawn, List.filter_cons, held_of_not_held (h e List.mem_cons_self), hes]

theorem leftOut_eq_filter (h : ∀ e ∈ es, held e.connectorId = false) :
    leftOut held es = (es.filter fun e => !(held e.source && held e.target)).map Edge.ends := by
  induction es with
  | nil => rfl
  | cons e es ih =>
    have hes := ih fun d hd => h d (List.mem_cons_of_mem e hd)
    rw [leftOut, List.filter_cons, held_of_not_held (h e List.mem_cons_self), hes]
    by_cases hends : (held e.source && held e.target) = true
    · simp [hends]
    · simp [hends]

end Drawn

namespace Canvas

/-- The canvas with connectors drawn in order. -/
def drawAll (c : Canvas) (ks : List Connector) : Canvas := ks.foldl draw c

theorem elements_drawAll (c : Canvas) (ks : List Connector) :
    (c.drawAll ks).elements = c.elements.insertAll (ks.map fun k => (k.id, .connector k)) := by
  induction ks generalizing c with
  | nil => rfl
  | cons k ks ih => exact ih (c.draw k)

/-- Drawing edges in order draws the connectors of the edges that can be drawn, each
between the rectangles that its ends had in the beginning. -/
theorem addEdges_eq (c : Canvas) (es : List Edge) :
    addEdges c es =
      (c.drawAll ((drawn c.hasShape es).map (Edge.connector c.theme.connector c.rectOf)),
        leftOut c.hasShape es) := by
  induction es generalizing c with
  | nil => rfl
  | cons e es ih =>
    rw [addEdges, drawn, leftOut]
    by_cases h : (c.hasShape e.source && c.hasShape e.target) = true
    · obtain ⟨hsource, htarget⟩ := Bool.and_eq_true_iff.mp h
      have hheld : (c.draw (e.connector c.theme.connector c.rectOf)).hasShape =
          fun id => c.hasShape id && id != e.connectorId :=
        funext (hasShape_draw c _)
      have hrect : ∀ d ∈ drawn (fun id => c.hasShape id && id != e.connectorId) es,
          d.connector c.theme.connector (c.draw (e.connector c.theme.connector c.rectOf)).rectOf =
            d.connector c.theme.connector c.rectOf := by
        intro d hd
        obtain ⟨hs, ht⟩ := held_of_mem_drawn hd
        simp only [Bool.and_eq_true_iff, bne_iff_ne] at hs ht
        rw [Edge.connector, rectOf_draw hs.2, rectOf_draw ht.2, Edge.connector]
      rw [addConnector_edgeSpec hsource htarget, if_pos h, if_pos h]
      simp only
      rw [ih, hheld, List.map_cons, ← List.map_congr_left hrect]
      rfl
    · rw [addConnector_edgeSpec_error (Bool.not_eq_true _ ▸ h), if_neg h, if_neg h]
      simp only
      rw [ih]
      rfl

theorem hasShape_drawAll (c : Canvas) (ks : List Connector) (id : String) :
    (c.drawAll ks).hasShape id = (c.hasShape id && ks.all fun k => id != k.id) := by
  induction ks generalizing c with
  | nil => simp [drawAll]
  | cons k ks ih =>
    rw [List.all_cons, ← Bool.and_assoc, ← hasShape_draw]
    exact ih (c.draw k)

/-- The ids that hold shapes after the edges. -/
theorem hasShape_addEdges (c : Canvas) (es : List Edge) :
    (addEdges c es).1.hasShape = heldAfter c.hasShape es := by
  funext id
  rw [addEdges_eq, hasShape_drawAll, List.all_map]
  rfl

end Canvas

end FlowchartSlides
