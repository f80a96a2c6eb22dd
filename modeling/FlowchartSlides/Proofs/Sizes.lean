import FlowchartSlides.Proofs.Coherence
import FlowchartSlides.Proofs.Singles

/-!
# Sizes are never negative

A layout may hold any numbers, NaN and the infinities among them, and so may
what a caller asks for. Every size of a shape or a text box is clamped where it
is written, so `IsSize` holds of it after any run. A connector has no size: its
extents carry a sign, and its box takes their absolute values.
-/
namespace FlowchartSlides

namespace Table

variable {α : Type} {P : α → Prop} {t : Table α}

/-- Every value of a table has a property. -/
def All (P : α → Prop) (t : Table α) : Prop := ∀ v ∈ t.values, P v

theorem all_empty : All P ∅ := fun _ h => absurd h List.not_mem_nil

theorem All.of_get? (h : t.All P) {key : String} {v : α} (hv : t.get? key = some v) : P v :=
  h v (List.mem_map_of_mem (f := (·.2)) (exists_entry_of_lookup hv))

theorem All.insert (h : t.All P) (key : String) {v : α} (hv : P v) : (t.insert key v).All P := by
  intro w hw
  rcases mem_values_insert hw with heq | hw
  · exact heq ▸ hv
  · exact h w hw

theorem All.modify (h : t.All P) (key : String) {f : α → α} (hf : ∀ v, P v → P (f v)) :
    (t.modify key f).All P := by
  intro w hw
  obtain ⟨e, he, heq⟩ := List.mem_map.mp hw
  rcases mem_amend he with he | ⟨v, hv, rfl⟩
  · exact heq ▸ h _ (List.mem_map_of_mem he)
  · exact heq ▸ hf v (h v (List.mem_map_of_mem (f := (·.2)) hv))

end Table

/-- A number, and none below zero. -/
def IsSize (x : Float32) : Prop := ¬ x < 0 ∧ x.isNaN = false

theorem isSize_clampSize (x : Float32) : IsSize (clampSize x) := by
  rw [clampSize]
  split
  next hpos => exact ⟨Single.not_lt_zero_of_pos hpos, Single.isNaN_of_pos hpos⟩
  next => exact ⟨by decide, rfl⟩

namespace Rect

/-- Both sizes of a rectangle are sizes. -/
def Sized (r : Rect) : Prop := IsSize r.width ∧ IsSize r.height

/-- Neither size is below zero; either may be NaN. -/
def Unsigned (r : Rect) : Prop := ¬ r.width < 0 ∧ ¬ r.height < 0

theorem Sized.unsigned {r : Rect} (h : r.Sized) : r.Unsigned := ⟨h.1.1, h.2.1⟩

end Rect

theorem Canvas.sized_rectOr (r : Rect) (x y width height : Option Float32) :
    (rectOr r x y width height).Sized :=
  ⟨isSize_clampSize _, isSize_clampSize _⟩

namespace Element

/-- A shape's sizes are sizes; a connector has none. -/
def Sized : Element → Prop
  | shape s => s.rect.Sized
  | connector _ => True

/-- No box of an element has a negative size, whatever the extents of a connector are. -/
theorem Sized.unsigned_box {e : Element} (h : e.Sized) : e.box.Unsigned := by
  cases e with
  | shape s => exact Rect.Sized.unsigned h
  | connector k => exact ⟨Single.not_abs_lt_zero k.route.dx, Single.not_abs_lt_zero k.route.dy⟩

theorem Edit.sized {f : Element → Element} (hf : Edit f) {e : Element} (h : e.Sized) :
    (f e).Sized := by
  cases e with
  | connector k => cases hf <;> trivial
  | shape s =>
    cases hf with
    | move x y => exact h
    | resize width height => exact ⟨isSize_clampSize width, isSize_clampSize height⟩
    | restyle style => exact h

end Element

namespace Canvas

variable {c c' : Canvas}

/-- All shapes and all text boxes have sizes. -/
structure Sized (c : Canvas) : Prop where
  elements : c.elements.All Element.Sized
  texts : ∀ t ∈ c.texts, t.rect.Sized

theorem Sized.unsigned_views (h : c.Sized) : ∀ v ∈ c.views, v.rect.Unsigned := by
  intro v hv
  obtain ⟨e, he, rfl⟩ := List.mem_map.mp hv
  exact (h.elements e he).unsigned_box

/-- Every small step keeps the sizes. -/
theorem sized_step (hstep : Step c c') (h : c.Sized) : c'.Sized := by
  cases hstep with
  | shape spec => exact ⟨h.elements.insert _ (sized_rectOr ..), h.texts⟩
  | connector spec hsource htarget => exact ⟨h.elements.insert _ trivial, h.texts⟩
  | text spec =>
    refine ⟨h.elements, fun t ht => ?_⟩
    rcases List.mem_append.mp ht with ht | ht
    · exact h.texts t ht
    · rw [List.mem_singleton.mp ht]
      exact sized_rectOr ..
  | edit id hf => exact ⟨h.elements.modify id fun _ => hf.sized, h.texts⟩
  | built f => exact ⟨h.elements, h.texts⟩

/-- After any run, from any layout and theme, no box in the view of the canvas has a negative
size, and every shape and text box has sizes that are numbers, none of them below zero. -/
theorem performAll_sizes (theme : Theme) (layout : Layout) (ops : List Operation) :
    let c := (new theme layout).performAll ops
    (∀ v ∈ c.views, ¬ v.rect.width < 0 ∧ ¬ v.rect.height < 0) ∧
      (∀ s, .shape s ∈ c.elements.values → IsSize s.rect.width ∧ IsSize s.rect.height) ∧
      ∀ t ∈ c.texts, IsSize t.rect.width ∧ IsSize t.rect.height := by
  intro c
  have hnew : (new theme layout).Sized := ⟨Table.all_empty, fun _ h => absurd h List.not_mem_nil⟩
  have hc : c.Sized :=
    keep_of_performAll (fun _ h => ⟨Table.all_empty, h.texts⟩) (fun _ _ => sized_step) ops hnew
  exact ⟨hc.unsigned_views, fun s hs => hc.elements _ hs, hc.texts⟩

/-- A layout whose nodes have a negative width and no height, and whose row runs to the left, a
connector resized on that row, and a text box with a negative width. -/
theorem performAll_sizes_negative_layout :
    let layout := { Layout.standard with nodeWidth := -2, nodeHeight := 0 / 0, spacing := -3 }
    let c := (new default layout).performAll
      [.build (Flowchart.empty.addEdge ⟨"A", "B", none, .solid, true⟩) ∅,
        .adjust [.resizeNode "connector_A_B" 4 (-1)], .addText { width := some (-1) }]
    c.views.map (·.id) = ["A", "B", "connector_A_B"] ∧ c.texts.length = 1 ∧
      (∀ v ∈ c.views, ¬ v.rect.width < 0 ∧ ¬ v.rect.height < 0) ∧
      (∀ s, .shape s ∈ c.elements.values → IsSize s.rect.width ∧ IsSize s.rect.height) ∧
      ∀ t ∈ c.texts, IsSize t.rect.width ∧ IsSize t.rect.height := by
  intro layout c
  exact ⟨rfl, rfl, performAll_sizes default layout _⟩

end Canvas

end FlowchartSlides
