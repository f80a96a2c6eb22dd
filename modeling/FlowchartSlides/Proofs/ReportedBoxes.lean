import FlowchartSlides.Proofs.Coherence
import FlowchartSlides.Proofs.EditFrames
import FlowchartSlides.Proofs.RoundedResults
import FlowchartSlides.Proofs.Sizes

/-!
# What is reported of an element that was resized and moved

A shape reports the box that it was given. A connector reports the box around its line, and a
move puts the start of that line at the point: when the line runs to the left or upwards, the
reported corner is not that point, but lies before it by the size that was set
(`adjust_resize_move_reported`). Numbers are compared as the program compares them, so the two
zeros are the same here.
-/
namespace FlowchartSlides

namespace Table

variable {α : Type}

/-- Under distinct keys what a look-up finds is the one entry with its key. -/
theorem filter_key_eq {key : String} {v : α} {es : List (String × α)}
    (hnodup : (es.map (·.1)).Nodup) (h : lookup key es = some v) :
    es.filter (·.1 = key) = [(key, v)] := by
  induction es with
  | nil => cases h
  | cons e es ih =>
    obtain ⟨hnot, hnodup⟩ := List.nodup_cons.mp hnodup
    by_cases he : e.1 = key
    · have hrest : es.filter (·.1 = key) = [] := by
        rw [List.filter_eq_nil_iff]
        intro d hd hkey
        exact hnot (List.mem_map.mpr ⟨d, hd, (of_decide_eq_true hkey).trans he.symm⟩)
      obtain rfl : e.2 = v := by simpa [lookup, he] using h
      rw [List.filter_cons_of_pos (by simpa using he), hrest, ← he]
    · rw [List.filter_cons_of_neg (by simpa using he)]
      exact ih hnodup (by simpa [lookup, he] using h)

end Table

namespace Single

variable {x w : Float32}

/-- A size that is neither NaN nor below zero is kept, up to the sign of a zero. -/
theorem clampSize_eq_or (hw : w.isFinite = true) (hw0 : ¬ w < 0) :
    clampSize w = w ∨ clampSize w = 0 ∧ value w = 0 := by
  have hnan := isNaN_of_isFinite hw
  rw [clampSize]
  split
  next => exact Or.inl rfl
  next h =>
    rw [lt_iff_value rfl hnan, value_zero] at h
    rw [not_lt_zero_iff hnan] at hw0
    exact Or.inr ⟨rfl, by omega⟩

theorem value_clampSize (hw : w.isFinite = true) (hw0 : ¬ w < 0) :
    (clampSize w).isFinite = true ∧ value (clampSize w) = value w := by
  obtain h | ⟨h, hzero⟩ := clampSize_eq_or hw hw0
  · rw [h]
    exact ⟨hw, rfl⟩
  · rw [h, hzero]
    exact ⟨rfl, rfl⟩

/-- A difference does not see the sign of a zero. -/
theorem value_sub_clampSize (hx : x.isFinite = true) (hw : w.isFinite = true) (hw0 : ¬ w < 0) :
    value (x - clampSize w) = value (x - w) := by
  obtain h | ⟨h, hzero⟩ := clampSize_eq_or hw hw0
  · rw [h]
  · have hnan := isNaN_of_isFinite hx
    have hkeep : ∀ z : Float32, z.isFinite = true → value z = 0 → value (x - z) = value x := by
      intro z hz hz0
      exact (rounds_sub hx hz).value_eq hnan (by omega)
    rw [h, hkeep 0 rfl rfl, hkeep w hw hzero]

end Single

open Single

namespace Element

/-- Whether a line runs to the left; a shape has no direction. -/
def runsLeft : Element → Bool
  | shape _ => false
  | connector k => decide (k.route.dx < 0)

/-- Whether a line runs upwards. -/
def runsUp : Element → Bool
  | shape _ => false
  | connector k => decide (k.route.dy < 0)

variable {x w : Float32}

/-- The lesser end of a line that starts at a point and has been given a size. -/
theorem lesser_end (old : Float32) (hx : x.isFinite = true) (hw : w.isFinite = true)
    (hw0 : ¬ w < 0) :
    (lesser x (x + signedLike old (clampSize w)) == if old < 0 then x - w else x) = true := by
  have hnan := isNaN_of_isFinite hx
  obtain ⟨hfinite, hvalue⟩ := value_clampSize hw hw0
  have hpos := (not_lt_zero_iff (isNaN_of_isFinite hw)).mp hw0
  rw [signedLike]
  split
  next =>
    have hsub := rounds_sub hx hfinite
    have hle := hsub.le hnan (by omega)
    have hsame := value_sub_clampSize hx hw hw0
    rw [← sub_eq]
    obtain ⟨hlesser, hmin⟩ := value_lesser hnan hsub.isNaN
    rw [beq_iff_value hlesser (rounds_sub hx hw).isNaN, hmin]
    omega
  next =>
    have hadd := rounds_add hx hfinite
    have hge := hadd.ge hnan (by omega)
    obtain ⟨hlesser, hmin⟩ := value_lesser hnan hadd.isNaN
    rw [beq_iff_value hlesser hnan, hmin]
    omega

theorem abs_signedLike (old : Float32) (hw : w.isFinite = true) (hw0 : ¬ w < 0) :
    ((signedLike old (clampSize w)).abs == w) = true := by
  have hnan := isNaN_of_isFinite hw
  obtain ⟨hfinite, hvalue⟩ := value_clampSize hw hw0
  have hpos := (not_lt_zero_iff hnan).mp hw0
  have hclamp := isNaN_of_isFinite hfinite
  rw [signedLike]
  split
  next =>
    rw [beq_iff_value (by rw [isNaN_abs, isNaN_neg, hclamp]) hnan, value_abs, value_neg]
    omega
  next =>
    rw [beq_iff_value (by rw [isNaN_abs, hclamp]) hnan, value_abs]
    omega

end Element

namespace Rect

/-- The same numbers. -/
structure Agrees (r r' : Rect) : Prop where
  x : (r.x == r'.x) = true
  y : (r.y == r'.y) = true
  width : (r.width == r'.width) = true
  height : (r.height == r'.height) = true

/-- What agrees with one of two rectangles of the same sizes agrees with the other one exactly
when their corners do. -/
theorem Agrees.iff_corner {r : Rect} {x y x' y' w h : Float32} (hr : r.Agrees ⟨x', y', w, h⟩)
    (hx : x.isNaN = false) (hy : y.isNaN = false) :
    r.Agrees ⟨x, y, w, h⟩ ↔ (x' == x) = true ∧ (y' == y) = true := by
  have hleft := isNaN_of_beq hr.x
  have htop := isNaN_of_beq hr.y
  have hrx := (beq_iff_value hleft.1 hleft.2).mp hr.x
  have hry := (beq_iff_value htop.1 htop.2).mp hr.y
  rw [beq_iff_value hleft.2 hx, beq_iff_value htop.2 hy, ← hrx, ← hry]
  constructor
  · exact fun h => ⟨(beq_iff_value hleft.1 hx).mp h.x, (beq_iff_value htop.1 hy).mp h.y⟩
  · exact fun h => ⟨(beq_iff_value hleft.1 hx).mpr h.1, (beq_iff_value htop.1 hy).mpr h.2,
      hr.width, hr.height⟩

end Rect

namespace Element

variable {x y w h : Float32}

/-- The box of an element that has been resized and moved. -/
theorem agrees_box (e : Element) (hx : x.isFinite = true) (hy : y.isFinite = true)
    (hw : w.isFinite = true) (hw0 : ¬ w < 0) (hh : h.isFinite = true) (hh0 : ¬ h < 0) :
    (moveTo x y (resize w h e)).box.Agrees
      ⟨if e.runsLeft then x - w else x, if e.runsUp then y - h else y, w, h⟩ := by
  cases e with
  | shape s =>
    have hclamp : ∀ {z : Float32}, z.isFinite = true → ¬ z < 0 → (clampSize z == z) = true := by
      intro z hz hz0
      obtain ⟨hfinite, hvalue⟩ := value_clampSize hz hz0
      exact (beq_iff_value (isNaN_of_isFinite hfinite) (isNaN_of_isFinite hz)).mpr hvalue
    exact ⟨beq_self_of_isFinite hx, beq_self_of_isFinite hy, hclamp hw hw0, hclamp hh hh0⟩
  | connector k =>
    refine ⟨?_, ?_, abs_signedLike k.route.dx hw hw0, abs_signedLike k.route.dy hh hh0⟩
    · simp only [runsLeft, decide_eq_true_eq]
      exact lesser_end k.route.dx hx hw hw0
    · simp only [runsUp, decide_eq_true_eq]
      exact lesser_end k.route.dy hy hh hh0

end Element

namespace Canvas

/-- Where elements stand under their own ids, the view shows each id once. -/
theorem views_of_get? {c : Canvas} (hkeyed : Keyed c.elements) {id : String} {e : Element}
    (he : c.get? id = some e) :
    c.views.filter (·.id = id) = [⟨e.id, e.kind, e.text, e.box⟩] := by
  have hentry := Table.filter_key_eq c.elements.nodup he
  have hids : c.elements.entries.filter (fun d => decide (d.2.id = id)) = [(id, e)] := by
    rw [← hentry]
    refine List.filter_congr fun d hd => ?_
    rw [hkeyed.ids d hd]
  have hmap := congrArg (List.map fun d : String × Element =>
    (⟨d.2.id, d.2.kind, d.2.text, d.2.box⟩ : View)) hids
  rw [views, Table.values, List.map_map, List.filter_map]
  exact hmap

/-- After any run, an element that is resized and then moved reports the size that was set, and
the corner that was set unless it is a connector that runs to the left or upwards: then its
corner lies before the point by the size. So what was set is what is reported exactly for
the other elements, and where the size is too small to make a difference. -/
theorem adjust_resize_move_reported (theme : Theme) (layout : Layout) (ops : List Operation)
    {id : String} {x y w h : Float32}
    (hid : id ∈ ((new theme layout).performAll ops).elements.keys)
    (hx : x.isFinite = true) (hy : y.isFinite = true) (hw : w.isFinite = true ∧ ¬ w < 0)
    (hh : h.isFinite = true ∧ ¬ h < 0) :
    let c := (new theme layout).performAll ops
    let run := c.adjust [.resizeNode id w h, .moveNode id x y]
    run.outcome = .ok ⟨2, []⟩ ∧ ∃ e v, c.get? id = some e ∧
      run.canvas.views.filter (·.id = id) = [v] ∧ v.kind = e.kind ∧ v.text = e.text ∧
      v.rect.Agrees
        ⟨if e.runsLeft then x - w else x, if e.runsUp then y - h else y, w, h⟩ ∧
      (v.rect.Agrees ⟨x, y, w, h⟩ ↔
        (e.runsLeft = true → (x - w == x) = true) ∧ (e.runsUp = true → (y - h == y) = true)) := by
  intro c run
  obtain ⟨e, he⟩ := Table.exists_get?_of_mem_keys hid
  obtain ⟨hcanvas, houtcome⟩ := adjust_edit_edit c (a := .resizeNode id w h)
    (b := .moveNode id x y) rfl rfl
  have hpresent : c.contains id = true := by rw [contains, Table.contains, he, Option.isSome_some]
  have hreport : c.editReport [.resizeNode id w h, .moveNode id x y] = ⟨2, []⟩ := by
    simp [editReport, Adjustment.missing?, Adjustment.target?, Option.filter, hpresent]
  have hget : run.canvas.get? id = some (Element.moveTo x y (Element.resize w h e)) := by
    have he' : c.elements.get? id = some e := he
    rw [hcanvas, get?, amend, Table.get?_modify, if_pos rfl, he']
    rfl
  have hkeyed : Keyed run.canvas.elements := by
    have hcoherent := coherent_performAll theme layout
      (ops ++ [.adjust [.resizeNode id w h, .moveNode id x y]])
    rw [performAll, List.foldl_append] at hcoherent
    exact hcoherent.toKeyed
  have hbox := e.agrees_box hx hy hw.1 hw.2 hh.1 hh.2
  refine ⟨by rw [houtcome, hreport], e, _, he, views_of_get? hkeyed hget, ?_, ?_, hbox, ?_⟩
  · cases e <;> rfl
  · cases e <;> rfl
  · rw [hbox.iff_corner (isNaN_of_isFinite hx) (isNaN_of_isFinite hy)]
    cases e.runsLeft <;> cases e.runsUp <;>
      simp [beq_self_of_isFinite hx, beq_self_of_isFinite hy]

/-- Two nodes in a row with a connector each way. The one to the right reports what was set, the
one to the left a corner that lies before it. -/
theorem adjust_resize_move_reported_both_ways :
    let ops := [Operation.build ((Flowchart.empty.addEdge ⟨"A", "B", none, .solid, true⟩).addEdge
      ⟨"B", "A", none, .solid, true⟩) ∅]
    let c := (new default default).performAll ops
    let run := fun id => c.adjust [.resizeNode id 1 2, .moveNode id 4 5]
    "connector_A_B" ∈ c.elements.keys ∧ "connector_B_A" ∈ c.elements.keys ∧
      (4 : Float32).isFinite = true ∧ (5 : Float32).isFinite = true ∧
      ((1 : Float32).isFinite = true ∧ ¬ (1 : Float32) < 0) ∧
      ((2 : Float32).isFinite = true ∧ ¬ (2 : Float32) < 0) ∧
      (∃ v, (run "connector_A_B").canvas.views.filter (·.id = "connector_A_B") = [v] ∧
        v.rect.Agrees ⟨4, 5, 1, 2⟩) ∧
      ∃ v, (run "connector_B_A").canvas.views.filter (·.id = "connector_B_A") = [v] ∧
        v.rect.Agrees ⟨3, 5, 1, 2⟩ ∧ ¬ v.rect.Agrees ⟨4, 5, 1, 2⟩ := by
  intro ops c run
  have hforth : "connector_A_B" ∈ c.elements.keys := by decide
  have hback : "connector_B_A" ∈ c.elements.keys := by decide
  have hx : (4 : Float32).isFinite = true := rfl
  have hy : (5 : Float32).isFinite = true := rfl
  have hw : (1 : Float32).isFinite = true ∧ ¬ (1 : Float32) < 0 := ⟨rfl, by decide⟩
  have hh : (2 : Float32).isFinite = true ∧ ¬ (2 : Float32) < 0 := ⟨rfl, by decide⟩
  obtain ⟨-, e, v, he, hv, -, -, -, hiff⟩ :=
    adjust_resize_move_reported default default ops hforth hx hy hw hh
  obtain ⟨-, e', v', he', hv', -, -, hbox', hiff'⟩ :=
    adjust_resize_move_reported default default ops hback hx hy hw hh
  obtain ⟨k, hk, hright, hlevel⟩ : ∃ k, c.get? "connector_A_B" = some (.connector k) ∧
      ¬ k.route.dx < 0 ∧ ¬ k.route.dy < 0 := ⟨_, rfl, by decide, by decide⟩
  obtain ⟨k', hk', hleft', hlevel'⟩ : ∃ k, c.get? "connector_B_A" = some (.connector k) ∧
      k.route.dx < 0 ∧ ¬ k.route.dy < 0 := ⟨_, rfl, by decide, by decide⟩
  obtain rfl : e = .connector k := Option.some.inj (he.symm.trans hk)
  obtain rfl : e' = .connector k' := Option.some.inj (he'.symm.trans hk')
  have hupright : Element.runsLeft (.connector k) = false ∧ Element.runsUp (.connector k) = false :=
    ⟨decide_eq_false hright, decide_eq_false hlevel⟩
  have hdirected : Element.runsLeft (.connector k') = true ∧
      Element.runsUp (.connector k') = false :=
    ⟨decide_eq_true hleft', decide_eq_false hlevel'⟩
  have hthree : (4 : Float32) - 1 = 3 := by decide +kernel
  simp only [hupright] at hiff
  simp only [hdirected, hthree, ↓reduceIte, Bool.false_eq_true] at hbox' hiff'
  have hforward : v.rect.Agrees ⟨4, 5, 1, 2⟩ := hiff.mpr ⟨nofun, nofun⟩
  have hbackward : ¬ v'.rect.Agrees ⟨4, 5, 1, 2⟩ := by
    intro hsame
    exact absurd ((hiff'.mp hsame).1 trivial) (by decide)
  refine ⟨hforth, hback, hx, hy, hw, hh, ?_, ?_⟩
  · exact ⟨v, hv, hforward⟩
  · exact ⟨v', hv', hbox', hbackward⟩

/-- A connector from a node to itself runs to the left. Given a size of 1 and moved to 4, it
reports 3. -/
theorem adjust_resize_move_self_loop :
    let c := (new default default).performAll [.build (Flowchart.ofText "A --> A") ∅]
    let run := c.adjust [.resizeNode "connector_A_A" 1 1, .moveNode "connector_A_A" 4 4]
    "connector_A_A" ∈ c.elements.keys ∧ run.outcome = .ok ⟨2, []⟩ ∧
      (run.canvas.views.filter (·.id = "connector_A_A")).map
        (fun v => (v.rect.x, v.rect.y, v.rect.width, v.rect.height)) = [(3, 4, 1, 1)] ∧
      ¬ ((3 : Float32) == 4) = true := by
  have hread : Flowchart.ofText "A --> A" =
      Flowchart.empty.addEdge ⟨"A", "A", none, .solid, true⟩ := by
    decide
  rw [hread]
  exact ⟨by decide, rfl, by decide +kernel, by decide⟩

end Canvas

end FlowchartSlides
