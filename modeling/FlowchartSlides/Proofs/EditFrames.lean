import FlowchartSlides.Proofs.CommutingEdits
import FlowchartSlides.Proofs.Forgetting
import FlowchartSlides.Proofs.Places

/-!
# What an edit leaves alone

A move, a resizing or a restyling writes a few parts of one element: `Adjustment.assigned`
lists them with what they become, and `part?_change` says that every other part stays as
it is. Which parts those are differs between shapes and connectors. On the canvas only
this element differs, so a moved shape takes no connector along.
-/
namespace FlowchartSlides

namespace Element

/-- The parts of elements, with the types of what they hold. -/
inductive Part : Type → Type where
  | kind : Part ElementKind
  | id : Part String
  | text : Part String
  | shapeKind : Part ShapeKind
  | x : Part Float32
  | y : Part Float32
  | width : Part Float32
  | height : Part Float32
  | source : Part String
  | target : Part String
  | anchorX : Part Float32
  | anchorY : Part Float32
  | dx : Part Float32
  | dy : Part Float32
  | flipH : Part Bool
  | flipV : Part Bool
  | head : Part ArrowHead
  | fillColor : Part String
  | lineColor : Part String
  | lineWidth : Part Float32
  | fontSize : Part Float32
  | textColor : Part String
  | align : Part HAlign
  | valign : Part VAlign

/-- What an element holds in a part, when it has that part. -/
def part? : {α : Type} → Element → Part α → Option α
  | _, e, .kind => some e.kind
  | _, e, .id => some e.id
  | _, shape s, .text => some s.text
  | _, shape s, .shapeKind => some s.kind
  | _, shape s, .x => some s.rect.x
  | _, shape s, .y => some s.rect.y
  | _, shape s, .width => some s.rect.width
  | _, shape s, .height => some s.rect.height
  | _, connector k, .source => some k.source
  | _, connector k, .target => some k.target
  | _, connector k, .anchorX => some k.route.anchorX
  | _, connector k, .anchorY => some k.route.anchorY
  | _, connector k, .dx => some k.route.dx
  | _, connector k, .dy => some k.route.dy
  | _, connector k, .flipH => some k.route.flipH
  | _, connector k, .flipV => some k.route.flipV
  | _, connector k, .head => some k.head
  | _, shape s, .fillColor => some s.style.fillColor
  | _, shape s, .lineColor => some s.style.lineColor
  | _, connector k, .lineColor => some k.style.lineColor
  | _, shape s, .lineWidth => some s.style.lineWidth
  | _, connector k, .lineWidth => some k.style.lineWidth
  | _, shape s, .fontSize => some s.style.fontSize
  | _, shape s, .textColor => some s.style.textColor
  | _, shape s, .align => some s.style.align
  | _, shape s, .valign => some s.style.valign
  | _, _, _ => none

/-- The parts that no edit writes. -/
def Part.isFixed : {α : Type} → Part α → Bool
  | _, .kind | _, .id | _, .text | _, .shapeKind | _, .source | _, .target | _, .flipH
  | _, .flipV | _, .head | _, .textColor | _, .align | _, .valign => true
  | _, _ => false

end Element

namespace Adjustment

variable {α : Type}

/-- What an edit writes in a part of its target, if it writes that part. A line colour
without a width makes the line one wide; a connector has neither fill nor font. -/
def assigned : {α : Type} → Adjustment → Element → Element.Part α → Option α
  | _, moveNode _ x _, .shape _, .x => some x
  | _, moveNode _ _ y, .shape _, .y => some y
  | _, moveNode _ x _, .connector _, .anchorX => some x
  | _, moveNode _ _ y, .connector _, .anchorY => some y
  | _, resizeNode _ width _, .shape _, .width => some (clampSize width)
  | _, resizeNode _ _ height, .shape _, .height => some (clampSize height)
  | _, resizeNode _ width _, .connector k, .dx =>
    some (Element.signedLike k.route.dx (clampSize width))
  | _, resizeNode _ _ height, .connector k, .dy =>
    some (Element.signedLike k.route.dy (clampSize height))
  | _, changeNodeStyle _ style, .shape _, .fillColor => style.fill
  | _, changeNodeStyle _ style, _, .lineColor => style.line
  | _, changeNodeStyle _ style, _, .lineWidth => style.lineWidth.or (style.line.map fun _ => 1)
  | _, changeNodeStyle _ style, .shape _, .fontSize => style.fontSize
  | _, _, _, _ => none

theorem assigned_of_isFixed (a : Adjustment) (e : Element) {p : Element.Part α} (h : p.isFixed) :
    a.assigned e p = none := by
  cases p <;> first | exact absurd h Bool.false_ne_true | (cases a <;> cases e <;> rfl)

/-- The width that a restyling leaves is the one that it gives, or the old one. -/
theorem some_newLineWidth (style : Restyling) (old : Float32) :
    some (style.newLineWidth old) =
      (style.lineWidth.or (style.line.map fun _ => 1)).or (some old) := by
  obtain ⟨fill, line, lineWidth, fontSize⟩ := style
  cases lineWidth <;> cases line <;> rfl

/-- An edited element holds in each part what the edit writes there, or else what it held. -/
theorem part?_change (a : Adjustment) (e : Element) (p : Element.Part α) :
    (a.change e).part? p = (a.assigned e p).or (e.part? p) := by
  cases a with
  | changeNodeStyle id style =>
    -- a restyling alone may leave out what it could write
    cases e with
    | shape s =>
      cases p with
      | fillColor | lineColor | fontSize => exact Option.or_some.symm
      | lineWidth => exact some_newLineWidth style _
      | _ => rfl
    | connector k =>
      cases p with
      | lineColor => exact Option.or_some.symm
      | lineWidth => exact some_newLineWidth style _
      | _ => rfl
  | _ => cases e <;> cases p <;> rfl

theorem keys_editIn (t : Table Element) (a : Adjustment) : (a.editIn t).keys = t.keys := by
  unfold editIn
  split
  next => exact Table.keys_modify t _ _
  next => rfl

/-- One edit keeps every part of every element, but for those of its target that it writes. -/
theorem part?_editIn {t : Table Element} {id : String} {e : Element} (he : t.get? id = some e)
    (a : Adjustment) : ∃ e', (a.editIn t).get? id = some e' ∧
      ∀ {α : Type} (p : Element.Part α), (a.target? = some id → ∀ d, a.assigned d p = none) →
        e'.part? p = e.part? p := by
  by_cases htarget : a.target? = some id
  · refine ⟨a.change e, ?_, fun p hp => ?_⟩
    · rw [editIn, htarget]
      show (t.modify id a.change).get? id = some (a.change e)
      rw [Table.get?_modify, if_pos rfl, he, Option.map_some]
    · rw [a.part?_change e p, hp htarget, Option.none_or]
  · refine ⟨e, ?_, fun _ _ => rfl⟩
    unfold editIn
    split
    next other hother =>
      have hne : id ≠ other := fun heq => htarget (heq ▸ hother)
      rw [Table.get?_modify, if_neg hne, he]
    next => exact he

/-- A run of edits keeps every part of every element that none of them writes there. -/
theorem part?_foldl_editIn {t : Table Element} {id : String} {e : Element}
    (he : t.get? id = some e) (as : List Adjustment) :
    ∃ e', (as.foldl editIn t).get? id = some e' ∧
      ∀ {α : Type} (p : Element.Part α),
        (∀ a ∈ as, a.target? = some id → ∀ d, a.assigned d p = none) →
        e'.part? p = e.part? p := by
  induction as generalizing t e with
  | nil => exact ⟨e, he, fun _ _ => rfl⟩
  | cons a as ih =>
    obtain ⟨d, hd, hfirst⟩ := part?_editIn he a
    obtain ⟨e', he', hrest⟩ := ih hd
    refine ⟨e', he', fun p hp => ?_⟩
    rw [hrest p fun b hb => hp b (List.mem_cons_of_mem a hb), hfirst p (hp a List.mem_cons_self)]

end Adjustment

namespace Canvas

variable {c : Canvas} {a : Adjustment} {id : String}

/-- From a canvas to one on which one element is another, in the same place. -/
structure Retouches (c d : Canvas) (id : String) (e e' : Element) : Prop where
  replaced : c.elements.Replaces d.elements id e e'
  history : d.history = c.history
  spares : Spares c d

/-- One edit alone. -/
theorem adjust_edit (c : Canvas) (h : a.target? = some id) :
    (c.adjust [a]).canvas = c.amend id a.change ∧
      (c.adjust [a]).outcome = .ok (AdjustReport.empty.prepend (a.missing? c)) := by
  have hedit : a.isEdit := Option.isSome_of_mem h
  obtain ⟨notices, hstep⟩ := adjustOne_edit c hedit
  rw [adjust_cons_ok hstep, Adjustment.editIn, h]
  exact ⟨rfl, rfl⟩

/-- Two edits of one element change it one after the other. -/
theorem adjust_edit_edit (c : Canvas) {b : Adjustment} (ha : a.target? = some id)
    (hb : b.target? = some id) :
    (c.adjust [a, b]).canvas = c.amend id (b.change ∘ a.change) ∧
      (c.adjust [a, b]).outcome = .ok (c.editReport [a, b]) := by
  have hedits : ∀ d ∈ [a, b], d.isEdit := by
    simp [Adjustment.isEdit, ha, hb]
  obtain ⟨hcanvas, houtcome⟩ := adjust_edits c hedits
  refine ⟨hcanvas.trans ?_, houtcome⟩
  simp only [List.foldl_cons, List.foldl_nil, Adjustment.editIn, ha, hb, Table.modify_modify]
  rfl

/-- An edit of an absent id does nothing and reports the id. An edit of a present one
changes that element, in its place and in no more than the parts that it writes: what an
element is, what it stands between and what it says are not among them. -/
theorem adjust_frame (c : Canvas) (h : a.target? = some id) :
    (id ∉ c.elements.keys →
      (c.adjust [a]).canvas = c ∧ (c.adjust [a]).outcome = .ok ⟨0, [id]⟩) ∧
      (id ∈ c.elements.keys → ∃ e e', c.get? id = some e ∧
        (c.adjust [a]).outcome = .ok ⟨1, []⟩ ∧ Retouches c (c.adjust [a]).canvas id e e' ∧
        (∀ {α : Type} (p : Element.Part α), e'.part? p = (a.assigned e p).or (e.part? p)) ∧
        ∀ {α : Type} (p : Element.Part α), p.isFixed → e'.part? p = e.part? p) := by
  obtain ⟨hcanvas, houtcome⟩ := adjust_edit c h
  rw [hcanvas, houtcome, Adjustment.missing?, h]
  constructor
  · intro habsent
    have hnot : c.contains id = false := by
      rw [contains, Table.contains, Table.get?_eq_none habsent, Option.isSome_none]
    refine ⟨?_, by simp [Option.filter, hnot, AdjustReport.prepend, AdjustReport.empty]⟩
    rw [amend, Table.modify_of_not_contains hnot]
  · intro hmem
    obtain ⟨e, he⟩ := Table.exists_get?_of_mem_keys hmem
    have hyes : c.contains id = true := by rw [contains, Table.contains, he, Option.isSome_some]
    refine ⟨e, a.change e, he, ?_, ⟨Table.replaces_modify he _, rfl, ⟨rfl, rfl, rfl, rfl⟩⟩,
      a.part?_change e, fun p hp => ?_⟩
    · simp [Option.filter, hyes, AdjustReport.prepend, AdjustReport.empty]
    · rw [a.part?_change e p, a.assigned_of_isFixed e hp, Option.none_or]

/-- A connector that is given a fill, a line colour and a font size, of which it takes the
line colour alone and becomes one wide, and an id that is not there. -/
theorem adjust_frame_connector :
    let c := (new default default).performAll [.addShape { id := some "A" },
      .addShape { id := some "B" }, .addConnector { source := "A", target := "B" }]
    let style : Restyling := ⟨some "FFFFFF", some "000000", none, some 9⟩
    let present := Adjustment.changeNodeStyle "connector_A_B" style
    let absent := Adjustment.moveNode "C" 1 2
    present.target? = some "connector_A_B" ∧ "connector_A_B" ∈ c.elements.keys ∧
      (∃ e e', c.get? "connector_A_B" = some e ∧
        Retouches c (c.adjust [present]).canvas "connector_A_B" e e' ∧
        e'.part? .lineColor = some "000000" ∧ e'.part? .lineWidth = some 1 ∧
        e'.part? .fillColor = none ∧ e'.part? .fontSize = none ∧
        e'.part? .dx = e.part? .dx ∧ e'.part? .target = some "B") ∧
      absent.target? = some "C" ∧ "C" ∉ c.elements.keys ∧ (c.adjust [absent]).canvas = c ∧
      (c.adjust [absent]).outcome = .ok ⟨0, ["C"]⟩ := by
  intro c style present absent
  have hmem : "connector_A_B" ∈ c.elements.keys := by decide
  have hnot : "C" ∉ c.elements.keys := by decide
  obtain ⟨e, e', he, -, hretouches, hparts, hfixed⟩ := (adjust_frame c (a := present) rfl).2 hmem
  obtain ⟨hcanvas, houtcome⟩ := (adjust_frame c (a := absent) rfl).1 hnot
  obtain ⟨k, hk, htarget⟩ : ∃ k, c.get? "connector_A_B" = some (.connector k) ∧ k.target = "B" :=
    ⟨_, rfl, rfl⟩
  obtain rfl : e = .connector k := Option.some.inj (he.symm.trans hk)
  refine ⟨rfl, hmem, ⟨_, e', he, hretouches, hparts .lineColor, hparts .lineWidth,
    hparts .fillColor, hparts .fontSize, hparts .dx, ?_⟩, rfl, hnot, hcanvas, houtcome⟩
  rw [hfixed .target rfl, ← htarget]
  rfl

/-- A list of edits keeps the ids in their order, the history, the text boxes and the count of
automatic ids, and of each element all parts that no edit of it in the list writes. -/
theorem adjust_edits_frame (c : Canvas) {as : List Adjustment} (h : ∀ a ∈ as, a.isEdit) :
    (c.adjust as).canvas.elements.keys = c.elements.keys ∧
      (c.adjust as).canvas.history = c.history ∧ Spares c (c.adjust as).canvas ∧
      ∀ id e, c.get? id = some e → ∃ e', (c.adjust as).canvas.get? id = some e' ∧
        ∀ {α : Type} (p : Element.Part α),
          (∀ a ∈ as, a.target? = some id → ∀ d, a.assigned d p = none) →
          e'.part? p = e.part? p := by
  rw [(adjust_edits c h).1]
  refine ⟨?_, rfl, ⟨rfl, rfl, rfl, rfl⟩, fun id e he => Adjustment.part?_foldl_editIn he as⟩
  exact List.foldlRecOn (motive := fun t => t.keys = c.elements.keys) as Adjustment.editIn rfl
    fun t ht a _ => (Adjustment.keys_editIn t a).trans ht

end Canvas

end FlowchartSlides
