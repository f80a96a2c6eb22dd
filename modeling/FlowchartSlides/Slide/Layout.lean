import FlowchartSlides.Slide.Rect
import FlowchartSlides.Flowchart.Basic

/-!
# Placement of nodes

Where a node lands depends on the direction of the flowchart and on its place
in the order of first mention alone. Horizontal flowcharts use one row; all
others, also those without direction, fill a grid row by row.
-/
namespace FlowchartSlides

section Indexed

variable {α β γ : Type}

/-- A map behind an indexed map, or before one, makes one indexed map with it. -/
theorem map_mapIdx (f : Nat → α → β) (g : β → γ) (l : List α) :
    (l.mapIdx f).map g = l.mapIdx fun i a => g (f i a) := by
  apply List.ext_getElem?
  intro i
  simp only [List.getElem?_map, List.getElem?_mapIdx, Option.map_map]
  rfl

theorem mapIdx_map (f : Nat → β → γ) (g : α → β) (l : List α) :
    (l.map g).mapIdx f = l.mapIdx fun i a => f i (g a) := by
  apply List.ext_getElem?
  intro i
  simp only [List.getElem?_map, List.getElem?_mapIdx, Option.map_map]
  rfl

theorem mapIdx_fun (g : α → β) (l : List α) : (l.mapIdx fun _ => g) = l.map g := by
  apply List.ext_getElem?
  intro i
  rw [List.getElem?_map, List.getElem?_mapIdx]

end Indexed

structure Layout where
  startX : Float32
  startY : Float32
  spacing : Float32
  rowHeight : Float32
  gridColumns : Nat
  nodeWidth : Float32
  nodeHeight : Float32
  /-- where shapes without a position of their own go -/
  defaultShape : Rect
  textBox : Rect
  titleX : Float32
  titleY : Float32
deriving Repr

namespace Layout

def standard : Layout where
  startX := 1
  startY := 2
  spacing := 2.5
  rowHeight := 1.5
  gridColumns := 3
  nodeWidth := 2
  nodeHeight := 1
  defaultShape := ⟨1, 1, 2, 1⟩
  textBox := ⟨1, 1, 8, 1⟩
  titleX := 0.5
  titleY := 0.5

instance : Inhabited Layout := ⟨standard⟩

/-- The column and the row of the node with this index; a grid has at least one
column. -/
def cell (layout : Layout) (direction : Option Direction) (index : Nat) : Nat × Nat :=
  if direction.any (·.isHorizontal) then (index, 0)
  else
    let columns := max layout.gridColumns 1
    (index % columns, index / columns)

/-- The rectangle of the node with this index. -/
def nodeRect (layout : Layout) (direction : Option Direction) (index : Nat) : Rect :=
  let (column, row) := layout.cell direction index
  { x := layout.startX + Float32.ofNat column * layout.spacing
    y := layout.startY + Float32.ofNat row * layout.rowHeight
    width := layout.nodeWidth
    height := layout.nodeHeight }

/-- The nodes of a flowchart with their rectangles, in order. -/
def place (layout : Layout) (f : Flowchart) : List (Node × Rect) :=
  f.nodes.values.mapIdx fun index node => (node, layout.nodeRect f.direction index)

/-- Every node is placed, in order. -/
theorem map_fst_place (layout : Layout) (f : Flowchart) :
    (layout.place f).map (·.1) = f.nodes.values := by
  rw [place, map_mapIdx]
  exact (mapIdx_fun id _).trans (List.map_id _)

end Layout

end FlowchartSlides
