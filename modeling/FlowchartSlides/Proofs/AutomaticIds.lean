import FlowchartSlides.Proofs.Operations
import FlowchartSlides.Proofs.Places
import FlowchartSlides.Proofs.ShapeTexts

/-!
# Automatic ids

A shape without an id of its own is given the next one of a count that only such shapes
advance, and the count never starts again. Whatever stands on a canvas stands there under
an id that was asked for since the latest build or `clear`, an automatic one that has been
given before, or the id of a connector; `named_performAll` carries this through every run.
The count is not held against the ids that were asked for: `performAll_automaticId` says
that a shape without an id takes the place of another element exactly when its id was
among them.
-/
namespace FlowchartSlides

/-- The automatic id of the shape with this number. -/
def automaticId (n : Nat) : String := "shape_" ++ toString n

theorem automaticId_injective {m n : Nat} (h : automaticId m = automaticId n) : m = n := by
  have hlists := congrArg String.toList h
  rw [automaticId, automaticId, String.toList_append, String.toList_append] at hlists
  have hread := congrArg (Nat.ofDigitChars 10 · 0) (List.append_cancel_left hlists)
  simpa [Nat.toString_eq_ofList_toDigits] using hread

theorem automaticId_ne_connectorId (n : Nat) (source target : String) :
    automaticId n ≠ connectorId source target := by
  intro h
  have hhead := congrArg (·.toList.head?) h
  simp [automaticId, connectorId] at hhead

/-- The id that a command asks for a shape. -/
def Adjustment.asked? : Adjustment → Option String
  | addNode spec => spec.id
  | _ => none

namespace Canvas

/-- The commands that are carried out, which are those before the first refused one. -/
def carried : Canvas → List Adjustment → List Adjustment
  | _, [] => []
  | c, a :: rest =>
    match c.adjustOne a with
    | .error _ => []
    | .ok step => a :: carried step.canvas rest

end Canvas

/-- The ids that an operation asks for shapes, and gets. -/
def Operation.asked (c : Canvas) : Operation → List String
  | addShape spec => spec.id.toList
  | build f _ => f.nodes.values.map Node.id
  | adjust commands => (c.carried commands).filterMap Adjustment.asked?
  | addConnector _ | addText _ | clear => []

namespace Canvas

/-- The ids that were asked for since the latest build or `clear`, where `ids` had been
before the operations. -/
def askedSince : Canvas → List String → List Operation → List String
  | _, ids, [] => ids
  | c, ids, op :: ops =>
    askedSince (c.perform op) ((if op.resets then [] else ids) ++ op.asked c) ops

/-- The ids that were asked for are there, and all others are automatic ones that have been
given or name connectors. -/
structure Named (c : Canvas) (ids : List String) : Prop where
  present : ∀ id ∈ ids, id ∈ c.elements.keys
  known : ∀ id ∈ c.elements.keys, id ∈ ids ∨ (∃ n ≤ c.shapeCount, id = automaticId n) ∨
    ∃ source target, id = connectorId source target

variable {c c' : Canvas} {ids : List String}

theorem named_addShape (h : Named c ids) (spec : ShapeSpec) :
    Named (c.addShape spec) (ids ++ spec.id.toList) := by
  have hkeys : ∀ id, id ∈ (c.addShape spec).elements.keys ↔
      id ∈ c.elements.keys ∨ id = c.shapeId spec := fun _ => Table.mem_keys_insert_iff
  have hcount : c.shapeCount ≤ (c.addShape spec).shapeCount := by
    show c.shapeCount ≤ if spec.id.isSome then c.shapeCount else c.shapeCount + 1
    split <;> omega
  refine ⟨fun id hid => ?_, fun id hid => ?_⟩
  · rw [hkeys]
    rcases List.mem_append.mp hid with hid | hid
    · exact Or.inl (h.present id hid)
    · right
      rw [shapeId, Option.mem_toList.mp hid, Option.getD_some]
  · rcases (hkeys id).mp hid with hid | rfl
    · rcases h.known id hid with hid | ⟨n, hn, rfl⟩ | hconnector
      · exact Or.inl (List.mem_append_left _ hid)
      · exact Or.inr (Or.inl ⟨n, hn.trans hcount, rfl⟩)
      · exact Or.inr (Or.inr hconnector)
    · cases hspec : spec.id with
      | some id => simp [shapeId, hspec]
      | none =>
        refine Or.inr (Or.inl ⟨c.shapeCount + 1, ?_, by rw [shapeId, hspec]; rfl⟩)
        simp [addShape, hspec]

theorem named_addConnector (h : Named c ids) {spec : ConnectorSpec}
    (hadd : c.addConnector spec = .ok c') : Named c' ids := by
  obtain ⟨source, target, -, -, rfl⟩ := addConnector_eq_ok_iff.mp hadd
  refine ⟨fun id hid => Table.mem_keys_insert_iff.mpr (Or.inl (h.present id hid)),
    fun id hid => ?_⟩
  rcases Table.mem_keys_insert_iff.mp hid with hid | rfl
  · exact h.known id hid
  · exact Or.inr (Or.inr ⟨spec.source, spec.target, rfl⟩)

theorem named_addNodes (icons : IconMap) (placed : List (Node × Rect)) (h : Named c ids) :
    Named (addNodes icons c placed) (ids ++ placed.map (·.1.id)) := by
  induction placed generalizing c ids with
  | nil => rwa [List.map_nil, List.append_nil]
  | cons p placed ih =>
    have hnode := ih (named_addShape h (nodeSpec icons p.1 p.2))
    rwa [List.append_assoc] at hnode

theorem named_addEdges (es : List Edge) (h : Named c ids) : Named (addEdges c es).1 ids := by
  induction es generalizing c with
  | nil => exact h
  | cons e es ih =>
    rw [addEdges]
    split
    next c' hadd => exact ih (named_addConnector h hadd)
    next => exact ih h

theorem named_clear (c : Canvas) : Named c.clear [] :=
  ⟨fun _ h => absurd h List.not_mem_nil, fun _ h => absurd h List.not_mem_nil⟩

/-- A build asks for the ids of its nodes. -/
theorem named_build (c : Canvas) (f : Flowchart) (icons : IconMap) :
    Named (c.build f icons).1 (f.nodes.values.map Node.id) := by
  have hplaced : (c.layout.place f).map (·.1.id) = f.nodes.values.map Node.id := by
    rw [← c.layout.map_fst_place f, List.map_map]
    rfl
  have hnodes := named_addNodes icons (c.layout.place f) (named_clear c)
  rw [List.nil_append, hplaced] at hnodes
  have hedges := named_addEdges f.edges hnodes
  exact ⟨hedges.present, hedges.known⟩

theorem named_edit (h : Named c ids) (command id : String) (notices : List Notice)
    (f : Element → Element) : Named (c.edit command id notices f).canvas ids := by
  rw [edit]
  split
  next =>
    refine ⟨fun key hkey => ?_, fun key hkey => ?_⟩
    · rw [Table.keys_modify]
      exact h.present key hkey
    · rw [Table.keys_modify] at hkey
      exact h.known key hkey
  next => exact h

theorem named_adjustOne {a : Adjustment} {step : AdjustStep} (h : Named c ids)
    (hstep : c.adjustOne a = .ok step) : Named step.canvas (ids ++ a.asked?.toList) := by
  cases a with
  | addNode spec =>
    obtain rfl := Except.ok.inj hstep
    exact named_addShape h spec
  | addConnector spec =>
    obtain ⟨c', hadd, rfl⟩ := exists_of_adjustOne_addConnector hstep
    show Named _ (ids ++ [])
    rw [List.append_nil]
    exact named_addConnector h hadd
  | moveNode | resizeNode | changeNodeStyle =>
    obtain rfl := Except.ok.inj hstep
    show Named _ (ids ++ [])
    rw [List.append_nil]
    exact named_edit h _ _ _ _

theorem named_adjust (commands : List Adjustment) (h : Named c ids) :
    Named (c.adjust commands).canvas
      (ids ++ (c.carried commands).filterMap Adjustment.asked?) := by
  induction commands generalizing c ids with
  | nil => rwa [carried, List.filterMap_nil, List.append_nil]
  | cons a commands ih =>
    rw [carried]
    split
    -- what stands behind a refused command is neither carried out nor asked for
    next m hstep =>
      rw [adjust_cons_error hstep, List.filterMap_nil, List.append_nil]
      exact h
    next step hstep =>
      have hasked : (a :: step.canvas.carried commands).filterMap Adjustment.asked? =
          a.asked?.toList ++ (step.canvas.carried commands).filterMap Adjustment.asked? := by
        rw [List.filterMap_cons]
        cases a.asked? <;> rfl
      rw [adjust_cons_ok hstep, hasked, ← List.append_assoc]
      exact ih (named_adjustOne h hstep)

/-- Every operation asks for ids and gives automatic ones, and brings no others. -/
theorem named_perform (h : Named c ids) (op : Operation) :
    Named (c.perform op) ((if op.resets then [] else ids) ++ op.asked c) := by
  cases op with
  | addShape spec => exact named_addShape h spec
  | addConnector spec =>
    show Named _ (ids ++ [])
    rw [List.append_nil, perform]
    split
    next c' hadd => exact named_addConnector h hadd
    next => exact h
  | addText spec =>
    show Named _ (ids ++ [])
    rw [List.append_nil]
    exact ⟨h.present, h.known⟩
  | build f icons => exact named_build c f icons
  | clear => exact named_clear c
  | adjust commands => exact named_adjust commands h

theorem named_performAll (ops : List Operation) (h : Named c ids) :
    Named (c.performAll ops) (askedSince c ids ops) := by
  induction ops generalizing c ids with
  | nil => exact h
  | cons op ops ih => exact ih (named_perform h op)

/-- The next automatic id has not been given, so if it is there it was asked for. -/
theorem Named.next_mem_keys_iff (h : Named c ids) :
    automaticId (c.shapeCount + 1) ∈ c.elements.keys ↔ automaticId (c.shapeCount + 1) ∈ ids := by
  constructor
  · intro hmem
    rcases h.known _ hmem with hid | ⟨n, hn, heq⟩ | ⟨source, target, heq⟩
    · exact hid
    · have hnext := automaticId_injective heq
      omega
    · exact absurd heq (automaticId_ne_connectorId _ source target)
  · exact h.present _

/-- A shape is written under its id. -/
theorem exists_shape_addShape (c : Canvas) (spec : ShapeSpec) : ∃ s : Shape,
    s.id = c.shapeId spec ∧
      (c.addShape spec).elements = c.elements.insert (c.shapeId spec) (.shape s) := by
  refine ⟨_, ?_, rfl⟩
  rfl

/-- After any run from an empty canvas, a shape without an id has the next automatic one. It
comes behind all other elements exactly when nothing since the latest build or `clear` has
asked for that id; otherwise it takes the place of the element that stands there. -/
theorem performAll_automaticId (theme : Theme) (layout : Layout) (ops : List Operation)
    (spec : ShapeSpec) (hspec : spec.id = none) :
    let c := (new theme layout).performAll ops
    let asked := askedSince (new theme layout) [] ops
    ∃ s : Shape, s.id = automaticId (c.shapeCount + 1) ∧
      c.adjust [.addNode spec] = ⟨c.addShape spec, [], .ok ⟨1, []⟩⟩ ∧
      (c.elements.Appends (c.addShape spec).elements s.id (.shape s) ↔ s.id ∉ asked) ∧
      ((∃ old, c.elements.Replaces (c.addShape spec).elements s.id old (.shape s)) ↔
        s.id ∈ asked) := by
  intro c asked
  have hnamed : Named c asked := named_performAll ops (named_clear (new theme layout))
  obtain ⟨s, hid, helements⟩ := exists_shape_addShape c spec
  rw [← hid] at helements
  have hnext : s.id = automaticId (c.shapeCount + 1) := by
    rw [hid, shapeId, hspec]
    rfl
  have hmem : s.id ∈ c.elements.keys ↔ s.id ∈ asked := by
    rw [hnext]
    exact hnamed.next_mem_keys_iff
  refine ⟨s, hnext, rfl, ?_, ?_⟩
  · rw [← hmem, helements]
    exact ⟨fun h => h.1, fun h => Table.appends_insert h _⟩
  · rw [← hmem, helements]
    constructor
    · rintro ⟨old, h⟩
      exact h.mem_keys
    · intro h
      obtain ⟨old, hold⟩ := Table.exists_get?_of_mem_keys h
      exact ⟨old, Table.replaces_insert hold _⟩

/-- An id that was asked for before a `clear`, or behind a refused connector, is not in the
way. One that was asked for and got is: its shape gives way when the count comes to it. -/
theorem performAll_automaticId_third :
    let ops : List Operation := [.addShape { id := some "shape_2" }, .clear, .addShape {},
      .adjust [.addNode { id := some "shape_3", text := "Kept" },
        .addConnector { source := "shape_1", target := "shape_2" },
        .addNode { id := some "shape_2" }]]
    let c := (new default default).performAll ops
    let d := c.addShape {}
    askedSince (new default default) [] ops = ["shape_3"] ∧
      (∃ s, s.id = "shape_2" ∧ c.elements.Appends d.elements s.id (.shape s)) ∧
      d.elements.keys = ["shape_1", "shape_3", "shape_2"] ∧
      ∃ old s, s.id = "shape_3" ∧
        d.elements.Replaces (d.addShape {}).elements s.id old (.shape s) := by
  intro ops c d
  have hasked : askedSince (new default default) [] ops = ["shape_3"] := by decide
  have hlater : askedSince (new default default) [] (ops ++ [.addShape {}]) = ["shape_3"] := by
    decide
  obtain ⟨s, hs, -, happends, -⟩ :=
    performAll_automaticId default default ops {} rfl
  obtain ⟨s', hs', -, -, hreplaces⟩ :=
    performAll_automaticId default default (ops ++ [.addShape {}]) {} rfl
  have hid : s.id = "shape_2" := hs.trans (by decide)
  have hid' : s'.id = "shape_3" := hs'.trans (by decide)
  have hfresh := happends.mpr (by rw [hasked, hid]; decide)
  obtain ⟨old, hold⟩ := hreplaces.mpr (by rw [hlater, hid']; decide)
  exact ⟨hasked, ⟨s, hid, hfresh⟩, by decide, old, s', hid', hold⟩

/-- A flowchart whose only node has the first automatic id: a shape without an id is drawn
over it. -/
theorem addShape_replaces_node :
    let c := ((default : Canvas).build (Flowchart.ofText "shape_1[Start]") ∅).1
    let d := c.addShape { text := "New" }
    c.elements.keys = ["shape_1"] ∧ c.elements.values.map Element.text = ["Start"] ∧
      d.elements.keys = ["shape_1"] ∧ d.elements.values.map Element.text = ["New"] ∧
      (c.adjust [.addNode { text := "New" }]).canvas = d := by
  intro c d
  have hkeys : c.elements.keys = ["shape_1"] := by decide +kernel
  exact ⟨hkeys, by decide +kernel, by decide +kernel, by decide +kernel, rfl⟩

end Canvas

end FlowchartSlides
