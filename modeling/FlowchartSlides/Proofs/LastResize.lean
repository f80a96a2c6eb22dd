import FlowchartSlides.Proofs.EditFrames
import FlowchartSlides.Proofs.Sizes
import FlowchartSlides.Proofs.Values

/-!
# When the last resizing wins

The extent that a resizing writes into a connector takes its sign from the extent that is
there. A zero has no direction, so once an extent that ran to the left or upwards has been
resized to zero, the next resizing turns the line around; every other pair of resizings is
the same as the second one alone.
-/
namespace FlowchartSlides

namespace Table

variable {α : Type}

theorem amend_eq_amend_iff {key : String} (f g : α → α) (es : List (String × α)) :
    amend key f es = amend key g es ↔ ∀ v, lookup key es = some v → f v = g v := by
  induction es with
  | nil => exact ⟨nofun, fun _ => rfl⟩
  | cons e es ih =>
    by_cases h : e.1 = key
    · simp [amend, lookup, h]
    · simp [amend, lookup, h, ih]

/-- Two changes of a table have the same effect exactly when they agree on what is there. -/
theorem modify_eq_modify_iff (t : Table α) (key : String) (f g : α → α) :
    t.modify key f = t.modify key g ↔ ∀ v, t.get? key = some v → f v = g v := by
  rw [Table.ext_iff]
  exact amend_eq_amend_iff f g t.entries

end Table

open Single

theorem zero_lt_clampSize_iff (x : Float32) : 0 < clampSize x ↔ 0 < x := by
  rw [clampSize]
  split
  next h => exact iff_of_true h h
  next h => exact iff_of_false (by decide) h

namespace Element

/-- An extent keeps its direction when it is resized twice exactly when the first size, if
the extent runs backwards, is above zero. -/
theorem signedLike_twice_iff (old : Float32) {first second : Float32} (hfirst : IsSize first)
    (hsecond : IsSize second) :
    signedLike (signedLike old first) second = signedLike old second ↔ (old < 0 → 0 < first) := by
  by_cases hback : old < 0
  · have hold : ∀ size, signedLike old size = -size := fun size => if_pos hback
    rw [hold, hold, signedLike]
    by_cases hpos : 0 < first
    · rw [if_pos ((neg_lt_zero_iff first).mpr hpos)]
      exact iff_of_true rfl fun _ => hpos
    · rw [if_neg (mt (neg_lt_zero_iff first).mp hpos)]
      exact iff_of_false (neg_ne_self hsecond.2).symm fun h => hpos (h hback)
  · have hold : ∀ size, signedLike old size = size := fun size => if_neg hback
    rw [hold, hold, signedLike, if_neg hfirst.1]
    exact iff_of_true rfl fun h => absurd h hback

theorem resize_resize_iff (w₁ h₁ w₂ h₂ : Float32) (e : Element) :
    resize w₂ h₂ (resize w₁ h₁ e) = resize w₂ h₂ e ↔
      ∀ k, e = connector k → (k.route.dx < 0 → 0 < w₁) ∧ (k.route.dy < 0 → 0 < h₁) := by
  cases e with
  | shape s => exact iff_of_true rfl nofun
  | connector k =>
    have hdx := signedLike_twice_iff k.route.dx (isSize_clampSize w₁) (isSize_clampSize w₂)
    have hdy := signedLike_twice_iff k.route.dy (isSize_clampSize h₁) (isSize_clampSize h₂)
    rw [zero_lt_clampSize_iff] at hdx hdy
    simp only [resize, connector.injEq, Connector.mk.injEq, Route.mk.injEq, and_true, true_and,
      forall_eq']
    rw [hdx, hdy]

end Element

namespace Canvas

/-- Of two resizings of one element the second alone decides what the canvas is, for every
element and all sizes, exactly when the first one does not bring an extent of a connector to
zero that runs to the left or upwards. -/
theorem adjust_resize_twice_iff (c : Canvas) (id : String) (w₁ h₁ w₂ h₂ : Float32) :
    (c.adjust [.resizeNode id w₁ h₁, .resizeNode id w₂ h₂]).canvas =
        (c.adjust [.resizeNode id w₂ h₂]).canvas ↔
      ∀ k, c.get? id = some (.connector k) →
        (k.route.dx < 0 → 0 < w₁) ∧ (k.route.dy < 0 → 0 < h₁) := by
  have htwice := (adjust_edit_edit c (a := .resizeNode id w₁ h₁) (b := .resizeNode id w₂ h₂)
    rfl rfl).1
  have honce := (adjust_edit c (a := .resizeNode id w₂ h₂) rfl).1
  rw [htwice, honce, amend, amend, Canvas.mk.injEq, Table.modify_eq_modify_iff]
  simp only [and_true]
  have hresize := Element.resize_resize_iff w₁ h₁ w₂ h₂
  constructor
  · exact fun h k hk => (hresize _).mp (h _ hk) k rfl
  · intro h e he
    refine (hresize e).mpr fun k hek => h k ?_
    rw [← hek]
    exact he

/-- Two nodes in a row and a connector back, which runs to the left. Resized to nothing it
loses its direction, and the next resizing makes it run to the right. -/
theorem adjust_resize_twice_turns :
    let c := ((default : Canvas).build (Flowchart.ofText "A --> B\nB --> A") ∅).1
    let last := Adjustment.resizeNode "connector_B_A" 2 1
    let both := (c.adjust [.resizeNode "connector_B_A" 0 0, last]).canvas
    let once := (c.adjust [last]).canvas
    let extent := fun d : Canvas =>
      ((d.get? "connector_B_A").bind Element.connector?).map (·.route.dx)
    both ≠ once ∧ extent c = some (-4.5) ∧ extent both = some 2 ∧ extent once = some (-2) := by
  intro c last both once extent
  have hread : Flowchart.ofText "A --> B\nB --> A" =
      (Flowchart.empty.addEdge ⟨"A", "B", none, .solid, true⟩).addEdge
        ⟨"B", "A", none, .solid, true⟩ := by
    decide
  have hc : c = ((default : Canvas).build ((Flowchart.empty.addEdge
      ⟨"A", "B", none, .solid, true⟩).addEdge ⟨"B", "A", none, .solid, true⟩) ∅).1 := by
    rw [← hread]
  have hboth : extent both = some 2 := by
    simp only [both, hc]
    rfl
  have honce : extent once = some (-2) := by
    simp only [once, hc]
    rfl
  refine ⟨fun heq => ?_, ?_, hboth, honce⟩
  · rw [heq, honce] at hboth
    exact absurd (Option.some.inj hboth) (by decide)
  · rw [hc]
    rfl

end Canvas

end FlowchartSlides
