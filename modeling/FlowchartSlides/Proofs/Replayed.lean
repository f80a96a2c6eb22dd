import FlowchartSlides.Proofs.BulkBuild
import FlowchartSlides.Proofs.Coherence
import FlowchartSlides.Proofs.CommandLists

/-!
# The history tells what is on a canvas

The history of a canvas only grows, and it grows at its end. Read from where the
latest build began, or from the start when there was none, it says which elements
there are: their ids in order, which are shapes and of what kind, and which are
connectors and between what. Texts, places, sizes and styles are not in it.
-/
namespace FlowchartSlides

/-- The elements that events tell of, written one after the other. -/
def Event.replay (events : List Event) : Table Outline :=
  (∅ : Table Outline).insertAll (events.filterMap outlined?)

namespace Operation

def isBuild : Operation → Bool
  | build .. => true
  | _ => false

/-- The operations before the latest build; none when nothing was built. -/
def beforeLatestBuild : List Operation → List Operation
  | [] => []
  | op :: ops => if ops.any isBuild then op :: beforeLatestBuild ops else []

/-- Operations without a build have nothing before their latest build; all others are
what comes before it, the build itself and operations without one. -/
theorem beforeLatestBuild_cases (ops : List Operation) :
    ((∀ op ∈ ops, op.isBuild = false) ∧ beforeLatestBuild ops = []) ∨
      ∃ f icons later, ops = beforeLatestBuild ops ++ .build f icons :: later ∧
        ∀ op ∈ later, op.isBuild = false := by
  induction ops with
  | nil => exact Or.inl ⟨fun _ h => absurd h List.not_mem_nil, rfl⟩
  | cons op ops ih =>
    rw [beforeLatestBuild]
    rcases ih with ⟨hnone, -⟩ | ⟨f, icons, later, hops, hlater⟩
    · have hany : ¬ ops.any isBuild = true := by
        rw [Bool.not_eq_true, List.any_eq_false]
        exact fun o ho => Bool.not_eq_true _ ▸ hnone o ho
      rw [if_neg hany]
      cases op with
      | build f icons => exact Or.inr ⟨f, icons, ops, rfl, hnone⟩
      | addShape | addConnector | addText | clear | adjust =>
        exact Or.inl ⟨List.forall_mem_cons.mpr ⟨rfl, hnone⟩, rfl⟩
    · have hany : ops.any isBuild = true := by
        rw [hops, List.any_append, List.any_cons]
        simp [isBuild]
      rw [if_pos hany]
      exact Or.inr ⟨f, icons, later, congrArg (op :: ·) hops, hlater⟩

end Operation

namespace Canvas

theorem performAll_append (c : Canvas) (ops later : List Operation) :
    c.performAll (ops ++ later) = (c.performAll ops).performAll later :=
  List.foldl_append

/-- The events since the latest of the operations that were builds began. -/
def sinceLatestBuild (c : Canvas) (ops : List Operation) : List Event :=
  (c.performAll ops).history.drop
    (c.performAll (Operation.beforeLatestBuild ops)).history.length

/-- Since its latest build began, an empty canvas has logged the elements that it has. -/
theorem logs_sinceLatestBuild (theme : Theme) (layout : Layout) {ops : List Operation}
    (hclear : Operation.clear ∉ ops) :
    Logs ∅ ((new theme layout).performAll (Operation.beforeLatestBuild ops))
      ((new theme layout).performAll ops) := by
  have hresets : ∀ later : List Operation, (∀ op ∈ later, op ∈ ops) →
      (∀ op ∈ later, op.isBuild = false) → ∀ op ∈ later, op.resets = false := by
    intro later hsub hbuild op hop
    cases op with
    | build f icons => exact absurd (hbuild _ hop) Bool.noConfusion
    | clear => exact absurd (hsub _ hop) hclear
    | addShape | addConnector | addText | adjust => rfl
  rcases Operation.beforeLatestBuild_cases ops with ⟨hnone, hbefore⟩ | ⟨f, icons, later, hops, hlater⟩
  · rw [hbefore]
    exact logs_performAll (new theme layout) (hresets ops (fun _ h => h) hnone)
  · have hsub : ∀ op ∈ later, op ∈ ops := by
      intro op hop
      rw [hops]
      exact List.mem_append_right _ (List.mem_cons_of_mem _ hop)
    generalize Operation.beforeLatestBuild ops = before at hops ⊢
    rw [hops, performAll_append]
    have hbuild := logs_perform ((new theme layout).performAll before) (.build f icons)
    exact hbuild.trans (logs_performAll _ (hresets later hsub hlater))

theorem history_drawAll (c : Canvas) (ks : List Connector) :
    (c.drawAll ks).history = c.history ++ ks.map fun k => .addConnector k.id k.source k.target := by
  induction ks generalizing c with
  | nil => exact (List.append_nil _).symm
  | cons k ks ih =>
    have hdraw := ih (c.draw k)
    rw [draw, List.append_assoc] at hdraw
    exact hdraw

/-- A build logs a shape for each node and a connector for each edge that it draws, and
then itself. -/
theorem history_build (c : Canvas) (f : Flowchart) (icons : IconMap) :
    (c.build f icons).1.history = c.history ++
      (f.nodes.values.map fun node => .addShape node.id .rectangle) ++
      ((drawn (c.withNodes f icons).hasShape f.edges).map fun e =>
        .addConnector e.connectorId e.source e.target) ++
      [.build f.nodes.size f.edges.length] := by
  have hplaced : ((c.layout.place f).map fun p => Event.addShape p.1.id .rectangle) =
      f.nodes.values.map fun node => .addShape node.id .rectangle := by
    rw [← c.layout.map_fst_place f, List.map_map]
    rfl
  have hnodes : (c.withNodes f icons).history =
      c.history ++ f.nodes.values.map fun node => .addShape node.id .rectangle := by
    rw [withNodes, addNodes_eq, ← hplaced]
    rfl
  have hedges : (addEdges (c.withNodes f icons) f.edges).1.history =
      (c.withNodes f icons).history ++ (drawn (c.withNodes f icons).hasShape f.edges).map
        fun e => .addConnector e.connectorId e.source e.target := by
    rw [addEdges_eq, history_drawAll, List.map_map]
    rfl
  rw [← hnodes, ← hedges]
  rfl

/-- After any run from an empty canvas that does not clear it, what the history has
gained since the latest build began gives the elements in order, each with its id and
its outline. The history goes on only at its end. A connector that is refused does
not come into it, whether it was asked for by itself, by the command at which a list
of adjustments stops, or for an edge that a build leaves out. -/
theorem performAll_history (theme : Theme) (layout : Layout) (ops : List Operation)
    (hclear : Operation.clear ∉ ops) :
    let c := (new theme layout).performAll ops
    (∀ later, c.history <+: (c.performAll later).history) ∧
      (∀ spec m, c.addConnector spec = .error m →
        (c.perform (.addConnector spec)).history = c.history) ∧
      (∀ commands m, (c.adjust commands).outcome = .error m →
        ∃ k, StopsAt c commands m k ∧
          (c.adjust commands).canvas.history = (c.adjust (commands.take k)).canvas.history) ∧
      (∀ f icons, (c.build f icons).1.history = c.history ++
        (f.nodes.values.map fun node => .addShape node.id .rectangle) ++
        ((drawn (c.withNodes f icons).hasShape f.edges).map fun e =>
          .addConnector e.connectorId e.source e.target) ++
        [.build f.nodes.size f.edges.length]) ∧
      (Event.replay ((new theme layout).sinceLatestBuild ops)).entries =
        c.elements.values.map fun e => (e.id, e.outline) := by
  intro c
  refine ⟨prefix_history_performAll c, fun spec m h => ?_, fun commands m h => ?_,
    history_build c, ?_⟩
  · rw [perform, h]
  · obtain ⟨k, hstops, hcanvas⟩ := exists_stopsAt h
    exact ⟨k, hstops, congrArg Canvas.history hcanvas⟩
  · obtain ⟨logged, hhistory, houtlines⟩ := logs_sinceLatestBuild theme layout hclear
    have hsince : (new theme layout).sinceLatestBuild ops = logged := by
      rw [sinceLatestBuild, hhistory, List.drop_left]
    have hids : ∀ e ∈ c.elements.entries, (e.1, e.2.outline) = (e.2.id, e.2.outline) :=
      fun e he => congrArg (·, e.2.outline) ((coherent_performAll theme layout ops).ids e he)
    calc (Event.replay ((new theme layout).sinceLatestBuild ops)).entries
        = c.outlines.entries := by rw [hsince, Event.replay, houtlines]
      _ = c.elements.entries.map fun e => (e.1, e.2.outline) := rfl
      _ = c.elements.entries.map fun e => (e.2.id, e.2.outline) := List.map_congr_left hids
      _ = c.elements.values.map fun e => (e.id, e.outline) := by rw [Table.values, List.map_map]; rfl

/-- A connector, a shape that takes its place, and a second build in which an edge is
left out; then adjustments that stop at a connector, and one that is refused. -/
theorem performAll_history_two_builds :
    let f := Flowchart.empty.addEdge ⟨"A", "B", none, .solid, true⟩
    let g := (f.addLooseEdge ⟨"A", "Ghost", none, .solid, true⟩).addEdge
      ⟨"B", "A", none, .dotted, true⟩
    let ops := [.build f ∅, .addText { text := "note" }, .addShape { id := some "C" },
      .build g ∅, .addShape { id := some "connector_A_B", kind := some .ellipse },
      .adjust [.moveNode "A" 1 2, .addConnector { source := "connector_A_B", target := "A" },
        .addConnector { source := "A", target := "connector_B_A" }, .addNode { id := some "D" }],
      .addConnector { source := "A", target := "C" }]
    Operation.clear ∉ ops ∧
      Operation.beforeLatestBuild ops =
        [.build f ∅, .addText { text := "note" }, .addShape { id := some "C" }] ∧
      ((new default default).performAll ops).elements.values.map (fun e => (e.id, e.outline)) =
        [("A", .shape .rectangle), ("B", .shape .rectangle), ("connector_A_B", .shape .ellipse),
          ("connector_B_A", .connector "B" "A"),
          ("connector_connector_A_B_A", .connector "connector_A_B" "A")] ∧
      (Event.replay ((new default default).sinceLatestBuild ops)).entries =
        ((new default default).performAll ops).elements.values.map fun e => (e.id, e.outline) := by
  intro f g ops
  have hclear : Operation.clear ∉ ops := by simp [ops]
  obtain ⟨-, -, -, -, hreplay⟩ := performAll_history default default ops hclear
  exact ⟨hclear, rfl, by decide, hreplay⟩

end Canvas

end FlowchartSlides
