import FlowchartSlides.Deck
import FlowchartSlides.Proofs.Magnitudes
import FlowchartSlides.Proofs.Sizes

/-!
# Geometry within bounds

From lengths that are moderate, numbers of at most `2 ^ 100`, and from at most
`2 ^ 20` nodes, every number of a canvas follows by a few sums, products and
halves. What each of them needs is counted once: shapes stand within `2 ^ 121`
of the corner of the slide, routes begin within `2 ^ 122` and run for at most
`2 ^ 123`. `Near` says so of a canvas; building and adjusting keep it, also when
an adjustment fails.
-/
namespace FlowchartSlides

open Single (Bounded)

/-- The greatest moderate number, `2 ^ 100`. -/
def moderateLimit : Float32 := Float32.ofBits 0x71800000

/-- A number that is neither NaN nor far from zero. -/
def Moderate (x : Float32) : Prop := x.abs ≤ moderateLimit

instance (x : Float32) : Decidable (Moderate x) :=
  inferInstanceAs (Decidable (x.abs ≤ moderateLimit))

theorem Moderate.bounded {x : Float32} (h : Moderate x) : Bounded 100 x := by
  have hlimit : Single.parts moderateLimit = .finite .positive (2 ^ 23) 77 (by decide) := rfl
  have hcanonical := Single.canonical_parts x
  rw [Moderate, Single.le_iff, Single.parts_abs, hlimit] at h
  rw [Bounded]
  cases hx : Single.parts x with
  | zero s => trivial
  | notANumber =>
    rw [hx] at h
    exact absurd h Bool.false_ne_true
  | infinity s =>
    rw [hx] at h
    exact absurd h Bool.false_ne_true
  | finite s m e hm =>
    rw [hx] at h hcanonical
    simp only [Float.Model.UnpackedFloat.abs, Float.Model.UnpackedFloat.compare, Option.any_some,
      Ordering.isLE_then_iff_or, compare_lt_iff_lt, compare_eq_iff_eq, Nat.isLE_compare] at h
    obtain ⟨hlt, hlow, hhigh, -⟩ := hcanonical
    refine ⟨hlow, hhigh, by omega, ?_⟩
    obtain h | ⟨rfl, h⟩ := h
    · have hpow : 2 ^ 24 ≤ 2 ^ (100 - e).toNat := Nat.pow_le_pow_right (by omega) (by omega)
      omega
    · exact h

section

variable {k : Int} {x y : Float32}

theorem bounded_zero : Bounded k 0 := trivial

theorem bounded_clampSize (h : Bounded k x) : Bounded k (clampSize x) := by
  rw [clampSize]
  split
  next => exact h
  next => exact bounded_zero

theorem bounded_lesser (hx : Bounded k x) (hy : Bounded k y) : Bounded k (lesser x y) := by
  rw [lesser]
  split
  next => exact hx
  next =>
    split
    next => exact hx
    next => exact hy

theorem bounded_signedLike (old : Float32) (h : Bounded k x) :
    Bounded k (Element.signedLike old x) := by
  rw [Element.signedLike]
  split
  next => exact h.neg
  next => exact h

end

/-- The numbers of a rectangle. -/
def Rect.lengths (r : Rect) : List Float32 := [r.x, r.y, r.width, r.height]

/-- The numbers of a layout from which the elements of a slide take their places and sizes. -/
def Layout.lengths (l : Layout) : List Float32 :=
  [l.startX, l.startY, l.spacing, l.rowHeight, l.nodeWidth, l.nodeHeight] ++ l.defaultShape.lengths

/-- The places and sizes that a command asks for. -/
def Adjustment.lengths : Adjustment → List Float32
  | moveNode _ x y => [x, y]
  | resizeNode _ width height => [width, height]
  | changeNodeStyle _ _ => []
  | addNode spec => [spec.x, spec.y, spec.width, spec.height].filterMap id
  | addConnector _ => []

/-- The place and the size of a shape on a slide. -/
structure Rect.Near (r : Rect) : Prop where
  x : Bounded 121 r.x
  y : Bounded 121 r.y
  width : Bounded 100 r.width
  height : Bounded 100 r.height

theorem Rect.near_of_moderate {r : Rect} (h : ∀ x ∈ r.lengths, Moderate x) : r.Near where
  x := (h r.x (by simp [lengths])).bounded.mono
  y := (h r.y (by simp [lengths])).bounded.mono
  width := (h r.width (by simp [lengths])).bounded
  height := (h r.height (by simp [lengths])).bounded

/-- Where a connector on a slide begins and how far it runs. -/
structure Route.Near (r : Route) : Prop where
  anchorX : Bounded 122 r.anchorX
  anchorY : Bounded 122 r.anchorY
  dx : Bounded 123 r.dx
  dy : Bounded 123 r.dy

/-- The right side and the middle of a shape are one power further, the extents of a route
another one. -/
theorem Route.near_between {source target : Rect} (hs : source.Near) (ht : target.Near) :
    (between source target).Near := by
  have hright : Bounded 122 source.right := hs.x.add hs.width
  have hcenter : Bounded 122 source.centerY := hs.y.add hs.height.half
  exact ⟨hright, hcenter, ht.x.sub hright, ht.y.sub hs.y⟩

namespace Element

/-- The geometry of an element is within its bounds. -/
def Near : Element → Prop
  | shape s => s.rect.Near
  | connector k => k.route.Near

/-- All numbers of an element's box are finite: the far end of a route is within `2 ^ 124`. -/
theorem Near.isFinite_box {e : Element} (h : e.Near) : ∀ x ∈ e.box.lengths, x.isFinite = true := by
  have hbounded : ∀ x ∈ e.box.lengths, Bounded 124 x := by
    cases e with
    | shape s =>
      have h : s.rect.Near := h
      simp only [box, Rect.lengths, List.forall_mem_cons]
      exact ⟨h.x.mono, h.y.mono, h.width.mono, h.height.mono,
        fun _ hx => absurd hx List.not_mem_nil⟩
    | connector k =>
      have h : k.route.Near := h
      have hendX : Bounded 124 (k.route.anchorX + k.route.dx) := h.anchorX.add h.dx
      have hendY : Bounded 124 (k.route.anchorY + k.route.dy) := h.anchorY.add h.dy
      simp only [box, Route.bounds, Rect.lengths, List.forall_mem_cons]
      exact ⟨bounded_lesser h.anchorX.mono hendX, bounded_lesser h.anchorY.mono hendY,
        h.dx.abs.mono, h.dy.abs.mono, fun _ hx => absurd hx List.not_mem_nil⟩
  exact fun x hx => (hbounded x hx).isFinite

theorem near_moveTo {x y : Float32} (hx : Moderate x) (hy : Moderate y) {e : Element}
    (h : e.Near) : (e.moveTo x y).Near := by
  cases e with
  | shape s =>
    have h : s.rect.Near := h
    exact ⟨hx.bounded.mono, hy.bounded.mono, h.width, h.height⟩
  | connector k =>
    have h : k.route.Near := h
    exact ⟨hx.bounded.mono, hy.bounded.mono, h.dx, h.dy⟩

theorem near_resize {width height : Float32} (hw : Moderate width) (hh : Moderate height)
    {e : Element} (h : e.Near) : (e.resize width height).Near := by
  have hwidth := bounded_clampSize hw.bounded
  have hheight := bounded_clampSize hh.bounded
  cases e with
  | shape s =>
    have h : s.rect.Near := h
    exact ⟨h.x, h.y, hwidth, hheight⟩
  | connector k =>
    have h : k.route.Near := h
    exact ⟨h.anchorX, h.anchorY, bounded_signedLike _ hwidth.mono,
      bounded_signedLike _ hheight.mono⟩

theorem near_restyle (style : Restyling) {e : Element} (h : e.Near) : (style.apply e).Near := by
  cases e <;> exact h

end Element

namespace Layout

variable {layout : Layout}

theorem cell_le (layout : Layout) (direction : Option Direction) (index : Nat) :
    (layout.cell direction index).1 ≤ index ∧ (layout.cell direction index).2 ≤ index := by
  rw [cell]
  split
  next => exact ⟨Nat.le_refl index, Nat.zero_le index⟩
  next => exact ⟨Nat.mod_le index _, Nat.div_le_self index _⟩

/-- Each coordinate of a node is its start and one product away from it. -/
theorem near_nodeRect (h : ∀ x ∈ layout.lengths, Moderate x) (direction : Option Direction)
    {index : Nat} (hindex : index ≤ 2 ^ 20) : (layout.nodeRect direction index).Near := by
  have hcell := cell_le layout direction index
  have hplace : ∀ {start step : Float32} {n : Nat}, start ∈ layout.lengths →
      step ∈ layout.lengths → n ≤ index → Bounded 121 (start + Float32.ofNat n * step) := by
    intro start step n hstart hstep hn
    have hproduct : Bounded (20 + 100) (Float32.ofNat n * step) :=
      (Bounded.ofNat (by omega) (hn.trans hindex)).mul (h step hstep).bounded
    exact (h start hstart).bounded.add hproduct
  exact ⟨hplace (by simp [lengths]) (by simp [lengths]) hcell.1,
    hplace (by simp [lengths]) (by simp [lengths]) hcell.2,
    (h layout.nodeWidth (by simp [lengths])).bounded,
    (h layout.nodeHeight (by simp [lengths])).bounded⟩

theorem near_place (h : ∀ x ∈ layout.lengths, Moderate x) {f : Flowchart}
    (hsize : f.nodes.size ≤ 2 ^ 20) : ∀ p ∈ layout.place f, p.2.Near := by
  intro p hp
  obtain ⟨index, hindex, rfl⟩ := List.mem_mapIdx.mp hp
  have hindex : index < f.nodes.size := by simpa [Table.values, Table.size] using hindex
  exact near_nodeRect h f.direction (by omega)

end Layout

/-- The places and sizes that a shape is asked to have are within the bounds of a shape. -/
structure ShapeSpec.Near (spec : ShapeSpec) : Prop where
  x : ∀ x ∈ spec.x, Bounded 121 x
  y : ∀ y ∈ spec.y, Bounded 121 y
  width : ∀ width ∈ spec.width, Bounded 100 width
  height : ∀ height ∈ spec.height, Bounded 100 height

theorem ShapeSpec.near_of_moderate {spec : ShapeSpec}
    (h : ∀ x ∈ (Adjustment.addNode spec).lengths, Moderate x) : spec.Near := by
  have hpart : ∀ part ∈ [spec.x, spec.y, spec.width, spec.height], ∀ x ∈ part, Bounded 100 x := by
    intro part hpart x hx
    exact (h x (List.mem_filterMap.mpr ⟨part, hpart, hx⟩)).bounded
  exact ⟨fun x hx => (hpart _ (by simp) x hx).mono,
    fun y hy => (hpart _ (by simp) y hy).mono, hpart _ (by simp), hpart _ (by simp)⟩

namespace Canvas

theorem near_rectOr {r : Rect} (hr : r.Near) {spec : ShapeSpec} (h : spec.Near) :
    (rectOr r spec.x spec.y spec.width spec.height).Near := by
  have hgetD : ∀ {k : Int} {part : Option Float32} {default : Float32}, Bounded k default →
      (∀ x ∈ part, Bounded k x) → Bounded k (part.getD default) := by
    intro k part default hdefault hpart
    cases part with
    | none => exact hdefault
    | some x => exact hpart x rfl
  exact ⟨hgetD hr.x h.x, hgetD hr.y h.y, bounded_clampSize (hgetD hr.width h.width),
    bounded_clampSize (hgetD hr.height h.height)⟩

/-- All elements are within their bounds, and so will be shapes that take the default. -/
structure Near (c : Canvas) : Prop where
  elements : c.elements.All Element.Near
  fallback : c.layout.defaultShape.Near

variable {c c' : Canvas}

theorem Near.addShape (h : c.Near) {spec : ShapeSpec} (hspec : spec.Near) :
    (c.addShape spec).Near :=
  ⟨h.elements.insert _ (near_rectOr h.fallback hspec), h.fallback⟩

theorem Near.of_shape? (h : c.Near) {id : String} {s : Shape} (hs : c.shape? id = some s) :
    s.rect.Near := by
  obtain ⟨e, he, heq⟩ := Option.bind_eq_some_iff.mp hs
  have hnear := h.elements.of_get? he
  cases e with
  | shape s' => exact Option.some.inj heq ▸ hnear
  | connector k => cases heq

theorem Near.addConnector (h : c.Near) {spec : ConnectorSpec}
    (hadd : c.addConnector spec = .ok c') : c'.Near := by
  obtain ⟨source, target, hsource, htarget, rfl⟩ := addConnector_eq_ok_iff.mp hadd
  have hroute := Route.near_between (h.of_shape? hsource) (h.of_shape? htarget)
  exact ⟨h.elements.insert _ hroute, h.fallback⟩

theorem Near.addNodes (icons : IconMap) {placed : List (Node × Rect)}
    (hplaced : ∀ p ∈ placed, p.2.Near) (h : c.Near) : (addNodes icons c placed).Near := by
  induction placed generalizing c with
  | nil => exact h
  | cons p placed ih =>
    have hp := hplaced p List.mem_cons_self
    have hspec : (nodeSpec icons p.1 p.2).Near := by
      constructor <;> rintro _ ⟨⟩
      · exact hp.x
      · exact hp.y
      · exact hp.width
      · exact hp.height
    exact ih (fun q hq => hplaced q (List.mem_cons_of_mem p hq)) (h.addShape hspec)

theorem Near.addEdges (es : List Edge) (h : c.Near) : (addEdges c es).1.Near := by
  induction es generalizing c with
  | nil => exact h
  | cons e es ih =>
    rw [Canvas.addEdges]
    split
    next c' hadd => exact ih (h.addConnector hadd)
    next => exact ih h

/-- What is built from a moderate layout is near, whatever was there before. -/
theorem near_build (c : Canvas) {f : Flowchart} (icons : IconMap)
    (hlayout : ∀ x ∈ c.layout.lengths, Moderate x) (hsize : f.nodes.size ≤ 2 ^ 20) :
    (c.build f icons).1.Near := by
  have hdefault : ∀ x ∈ c.layout.defaultShape.lengths, Moderate x :=
    fun x hx => hlayout x (List.mem_append_right _ hx)
  have hclear : c.clear.Near := ⟨Table.all_empty, Rect.near_of_moderate hdefault⟩
  have hdrawn := (hclear.addNodes icons (Layout.near_place hlayout hsize)).addEdges f.edges
  exact ⟨hdrawn.elements, hdrawn.fallback⟩

theorem Near.edit (h : c.Near) (command id : String) (notices : List Notice)
    {f : Element → Element} (hf : ∀ e : Element, e.Near → (f e).Near) :
    (c.edit command id notices f).canvas.Near := by
  rw [Canvas.edit]
  split
  next => exact ⟨h.elements.modify id hf, h.fallback⟩
  next => exact h

/-- One moderate command keeps a canvas near. -/
theorem Near.adjustOne (h : c.Near) {a : Adjustment} (ha : ∀ x ∈ a.lengths, Moderate x)
    {step : AdjustStep} (hstep : c.adjustOne a = .ok step) : step.canvas.Near := by
  cases a with
  | moveNode id x y =>
    obtain rfl := Except.ok.inj hstep
    have hx := ha x (by simp [Adjustment.lengths])
    have hy := ha y (by simp [Adjustment.lengths])
    exact h.edit _ id _ fun e he => e.near_moveTo hx hy he
  | resizeNode id width height =>
    obtain rfl := Except.ok.inj hstep
    have hw := ha width (by simp [Adjustment.lengths])
    have hh := ha height (by simp [Adjustment.lengths])
    exact h.edit _ id _ fun e he => e.near_resize hw hh he
  | changeNodeStyle id style =>
    obtain rfl := Except.ok.inj hstep
    exact h.edit _ id _ fun e he => e.near_restyle style he
  | addNode spec =>
    obtain rfl := Except.ok.inj hstep
    exact h.addShape (ShapeSpec.near_of_moderate ha)
  | addConnector spec =>
    obtain ⟨c', hadd, rfl⟩ := Canvas.exists_of_adjustOne_addConnector hstep
    exact h.addConnector hadd

/-- Moderate commands keep a canvas near, also those before one that fails. -/
theorem Near.adjust (h : c.Near) {commands : List Adjustment}
    (hcommands : ∀ a ∈ commands, ∀ x ∈ a.lengths, Moderate x) :
    (c.adjust commands).canvas.Near := by
  induction commands generalizing c with
  | nil => exact h
  | cons a commands ih =>
    have ha := hcommands a List.mem_cons_self
    have hrest : ∀ b ∈ commands, ∀ x ∈ b.lengths, Moderate x :=
      fun b hb => hcommands b (List.mem_cons_of_mem a hb)
    rw [Canvas.adjust]
    split
    next => exact h
    next step hstep => exact ih (h.adjustOne ha hstep) hrest

end Canvas

end FlowchartSlides
