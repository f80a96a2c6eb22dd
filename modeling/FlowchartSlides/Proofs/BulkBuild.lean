import FlowchartSlides.Proofs.DrawnEdges
import FlowchartSlides.Proofs.ShapeTexts

/-!
# What a build draws

A build forgets the elements that were there. It draws a shape for each node, in
the rectangle of the node's place in order of first mention, and then connectors
for edges. Where no connector takes the id of a node, every edge between nodes
is drawn, the last of those with one id counts, and all other edges are left
out; `build_of_apart` says which elements stand there in the end, in order.
-/
namespace FlowchartSlides

namespace Flowchart

/-- The flowcharts that are made by mentioning nodes and by adding edges, with
their ends or loose. -/
inductive Made : Flowchart → Prop
  | start (d : Option Direction) : Made ⟨d, ∅, []⟩
  | mention {f : Flowchart} (h : Made f) (id : String) (label : Option String) :
    Made (f.mention id label)
  | addEdge {f : Flowchart} (h : Made f) (e : Edge) : Made (f.addEdge e)
  | addLooseEdge {f : Flowchart} (h : Made f) (e : Edge) : Made (f.addLooseEdge e)

/-- Every node stands under its own id. -/
structure NodesKeyed (f : Flowchart) : Prop where
  ids : ∀ e ∈ f.nodes.entries, e.2.id = e.1

variable {f : Flowchart}

theorem NodesKeyed.mention (h : f.NodesKeyed) (id : String) (label : Option String) :
    (f.mention id label).NodesKeyed := by
  have hold : ((f.nodes.get? id).getD ⟨id, id⟩).id = id := by
    cases hget : f.nodes.get? id with
    | none => rfl
    | some node => exact h.ids _ (Table.exists_entry_of_lookup hget)
  refine ⟨fun e he => ?_⟩
  rcases Table.mem_write he with rfl | he
  · exact hold
  · exact h.ids e he

/-- However a flowchart is made, its nodes stand under their ids. -/
theorem Made.nodesKeyed (h : f.Made) : f.NodesKeyed := by
  induction h with
  | start d => exact ⟨fun _ he => absurd he List.not_mem_nil⟩
  | mention _ id label ih => exact ih.mention id label
  | addEdge _ e ih => exact ⟨((ih.mention e.source none).mention e.target none).ids⟩
  | addLooseEdge _ e ih => exact ⟨ih.ids⟩

theorem NodesKeyed.map_id (h : f.NodesKeyed) : f.nodes.values.map Node.id = f.nodes.keys := by
  rw [Table.values, List.map_map, Table.keys]
  exact List.map_congr_left fun e he => h.ids e he

/-- Whether a node stands under this id. -/
def hasNode (f : Flowchart) (id : String) : Bool := decide (id ∈ f.nodes.keys)

/-- Whether both ends of an edge are nodes. -/
def joins (f : Flowchart) (e : Edge) : Bool := f.hasNode e.source && f.hasNode e.target

/-- No connector for an edge would take the id of a node. -/
def Apart (f : Flowchart) : Prop := ∀ e ∈ f.edges, e.connectorId ∉ f.nodes.keys

instance (f : Flowchart) : Decidable f.Apart :=
  inferInstanceAs (Decidable (∀ e ∈ f.edges, e.connectorId ∉ f.nodes.keys))

end Flowchart

/-- The rectangle of the node with this id, which its place among the nodes gives. -/
def Layout.slot (layout : Layout) (f : Flowchart) (id : String) : Rect :=
  (layout.nodeRect f.direction (f.nodes.keys.idxOf id)).clamped

/-- Of the connectors with one id the last, at the place of the first. -/
def Connector.lastOfEach (ks : List Connector) : List Connector :=
  (ks.map Connector.id).eraseDups.filterMap fun id => ks.reverse.find? (·.id == id)

namespace Canvas

variable {f : Flowchart} {icons : IconMap}

/-- The shapes of the nodes in order. -/
def nodeShapes (c : Canvas) (f : Flowchart) (icons : IconMap) : List Shape :=
  f.nodes.values.mapIdx fun i node =>
    node.shape icons c.theme.shape (c.layout.nodeRect f.direction i)

/-- A build that has come to the edges. -/
def withNodes (c : Canvas) (f : Flowchart) (icons : IconMap) : Canvas :=
  addNodes icons c.clear (c.layout.place f)

theorem theme_withNodes (c : Canvas) : (c.withNodes f icons).theme = c.theme := by
  rw [withNodes, addNodes_eq]
  rfl

theorem id_nodeShapes (h : f.NodesKeyed) (c : Canvas) :
    (c.nodeShapes f icons).map Shape.id = f.nodes.keys := by
  rw [← h.map_id, nodeShapes, map_mapIdx]
  exact mapIdx_fun Node.id _

theorem entries_withNodes (h : f.NodesKeyed) (c : Canvas) :
    (c.withNodes f icons).elements.entries =
      (c.nodeShapes f icons).map fun s => (s.id, .shape s) := by
  have hshapes : (c.layout.place f).map (fun p =>
        (p.1.id, Element.shape (p.1.shape icons c.theme.shape p.2))) =
      (c.nodeShapes f icons).map fun s => (s.id, .shape s) := by
    rw [Layout.place, nodeShapes, map_mapIdx, map_mapIdx]
    rfl
  have hids : ((c.nodeShapes f icons).map fun s => (s.id, Element.shape s)).map (·.1) =
      f.nodes.keys := by
    rw [List.map_map]
    exact id_nodeShapes h c
  rw [withNodes, addNodes_eq]
  simp only [clear, hshapes]
  exact Table.entries_ofList (hids ▸ f.nodes.nodup_keys)

/-- Nodes become shapes. -/
theorem exists_shape_of_mem_withNodes (h : f.NodesKeyed) (c : Canvas) {e : Element}
    (he : e ∈ (c.withNodes f icons).elements.values) : ∃ s, e = .shape s := by
  obtain ⟨d, hd, rfl⟩ := List.mem_map.mp he
  rw [entries_withNodes h] at hd
  obtain ⟨s, -, rfl⟩ := List.mem_map.mp hd
  exact ⟨s, rfl⟩

theorem keys_withNodes (h : f.NodesKeyed) (c : Canvas) :
    (c.withNodes f icons).elements.keys = f.nodes.keys := by
  rw [Table.keys, entries_withNodes h, List.map_map]
  exact id_nodeShapes h c

/-- A node's shape is found under its id, in the rectangle of its place. -/
theorem exists_shape_withNodes (h : f.NodesKeyed) (c : Canvas) {id : String}
    (hid : id ∈ f.nodes.keys) :
    ∃ s, (c.withNodes f icons).shape? id = some s ∧ s.rect = c.layout.slot f id := by
  have hi : f.nodes.keys.idxOf id < f.nodes.keys.length := List.idxOf_lt_length_iff.mpr hid
  have hlen : (c.nodeShapes f icons).length = f.nodes.keys.length := by
    rw [← id_nodeShapes h c, List.length_map]
  have hmem := List.getElem_mem (l := c.nodeShapes f icons) (hlen ▸ hi)
  generalize hs : (c.nodeShapes f icons)[f.nodes.keys.idxOf id] = s at hmem
  have hsid : s.id = id := by
    have hmap : ((c.nodeShapes f icons).map Shape.id)[f.nodes.keys.idxOf id]? = some id := by
      rw [id_nodeShapes h c, List.getElem?_eq_getElem hi, List.getElem_idxOf hi]
    rw [List.getElem?_map, List.getElem?_eq_getElem (hlen ▸ hi), hs] at hmap
    exact Option.some.inj hmap
  have hentry : (s.id, Element.shape s) ∈ (c.withNodes f icons).elements.entries := by
    rw [entries_withNodes h]
    exact List.mem_map_of_mem hmem
  have hfind := Table.get?_of_mem hentry
  refine ⟨s, ?_, ?_⟩
  · rw [shape?, get?, ← hsid, hfind]
    rfl
  · rw [← hs]
    simp only [nodeShapes, List.getElem_mapIdx]
    rfl

theorem hasShape_withNodes (h : f.NodesKeyed) (c : Canvas) :
    (c.withNodes f icons).hasShape = f.hasNode := by
  funext id
  by_cases hid : id ∈ f.nodes.keys
  · obtain ⟨s, hs, -⟩ := exists_shape_withNodes h c hid
    rw [hasShape, hs, Flowchart.hasNode, decide_eq_true hid]
    rfl
  · have hkey : id ∉ (c.withNodes f icons).elements.keys := (keys_withNodes h c).symm ▸ hid
    rw [hasShape, shape?, get?, Table.get?_eq_none hkey, Flowchart.hasNode, decide_eq_false hid]
    rfl

theorem rectOf_withNodes (h : f.NodesKeyed) (c : Canvas) {id : String}
    (hid : id ∈ f.nodes.keys) : (c.withNodes f icons).rectOf id = c.layout.slot f id := by
  obtain ⟨s, hs, hrect⟩ := exists_shape_withNodes h c hid
  rw [rectOf, hs, ← hrect]
  rfl

/-- The connectors that a build draws, repetitions included. -/
def drawnConnectors (c : Canvas) (f : Flowchart) : List Connector :=
  (drawn f.hasNode f.edges).map (Edge.connector c.theme.connector (c.layout.slot f))

theorem addEdges_withNodes (h : f.NodesKeyed) (c : Canvas) :
    addEdges (c.withNodes f icons) f.edges =
      ((c.withNodes f icons).drawAll (c.drawnConnectors f), leftOut f.hasNode f.edges) := by
  have hrect : ∀ e ∈ drawn f.hasNode f.edges,
      e.connector c.theme.connector (c.withNodes f icons).rectOf =
        e.connector c.theme.connector (c.layout.slot f) := by
    intro e he
    obtain ⟨hsource, htarget⟩ := held_of_mem_drawn he
    rw [Edge.connector, rectOf_withNodes h c (of_decide_eq_true hsource),
      rectOf_withNodes h c (of_decide_eq_true htarget), Edge.connector]
  rw [addEdges_eq, hasShape_withNodes h, theme_withNodes, List.map_congr_left hrect]
  rfl

theorem elements_build (h : f.NodesKeyed) (c : Canvas) :
    (c.build f icons).1.elements =
      (c.withNodes f icons).elements.insertAll
        ((c.drawnConnectors f).map fun k => (k.id, .connector k)) := by
  rw [← elements_drawAll]
  exact congrArg (fun r => r.1.elements) (addEdges_withNodes h c)

theorem summary_build (h : f.NodesKeyed) (c : Canvas) :
    (c.build f icons).2 =
      { shapes := f.nodes.size
        connectors := f.edges.length - (leftOut f.hasNode f.edges).length
        skipped := leftOut f.hasNode f.edges } :=
  congrArg (fun r : Canvas × List (String × String) =>
    (⟨f.nodes.size, f.edges.length - r.2.length, r.2⟩ : BuildSummary)) (addEdges_withNodes h c)

/-- The last connector with an id, when there is one. -/
theorem lookup_reverse_map (ks : List Connector) (id : String) :
    Table.lookup id (ks.map fun k => (k.id, Element.connector k)).reverse =
      (ks.reverse.find? (·.id == id)).map .connector := by
  rw [← List.map_reverse]
  induction ks.reverse with
  | nil => rfl
  | cons k ks ih =>
    rw [List.map_cons, Table.lookup]
    by_cases hk : k.id = id
    · rw [if_pos hk, List.find?_cons_of_pos (by simpa using hk)]
      rfl
    · rw [if_neg hk, List.find?_cons_of_neg (by simpa using hk), ih]

/-- Connectors with new ids come behind the elements, the last of each id. -/
theorem values_insertAll_connectors {t : Table Element} {ks : List Connector}
    (hnew : ∀ k ∈ ks, k.id ∉ t.keys) :
    (t.insertAll (ks.map fun k => (k.id, .connector k))).values =
      t.values ++ (Connector.lastOfEach ks).map .connector := by
  have hids : (ks.map fun k => (k.id, Element.connector k)).map (·.1) = ks.map Connector.id := by
    rw [List.map_map]
    rfl
  have hapart : ∀ id ∈ ks.map Connector.id, id ∉ t.keys := by
    intro id hid
    obtain ⟨k, hk, rfl⟩ := List.mem_map.mp hid
    exact hnew k hk
  have hkeys : (t.insertAll (ks.map fun k => (k.id, .connector k))).keys =
      t.keys ++ (ks.map Connector.id).eraseDups := by
    rw [Table.keys_insertAll, hids, eraseDups_append_of_disjoint hapart,
      eraseDups_eq_self t.nodup_keys]
  have hold : ∀ key ∈ t.keys,
      (t.insertAll (ks.map fun k => (k.id, .connector k))).get? key = t.get? key := by
    intro key hkey
    have hnone : Table.lookup key (ks.map fun k => (k.id, Element.connector k)).reverse = none := by
      refine Table.lookup_eq_none ?_
      rw [List.map_reverse, hids, List.mem_reverse]
      exact fun hid => hapart key hid hkey
    rw [Table.get?_insertAll, hnone, Option.none_or]
  have hlast : ∀ key ∈ (ks.map Connector.id).eraseDups,
      (t.insertAll (ks.map fun k => (k.id, .connector k))).get? key =
        (ks.reverse.find? (·.id == key)).map .connector := by
    intro key hkey
    have hnone : t.get? key = none :=
      Table.get?_eq_none (hapart key (List.mem_eraseDups.mp hkey))
    rw [Table.get?_insertAll, hnone, Option.or_none, lookup_reverse_map]
  rw [Table.values_eq_filterMap, hkeys, List.filterMap_append, List.filterMap_congr hold,
    List.filterMap_congr hlast, ← Table.values_eq_filterMap, Connector.lastOfEach,
    List.map_filterMap]

/-- Where no connector takes the id of a node, a build on any canvas leaves a
shape for each node, in order, and behind them the connectors of the edges
between nodes, of those with one id the last at the place of the first; all
other edges are reported. -/
theorem build_of_apart {f : Flowchart} (hmade : f.Made) (hapart : f.Apart) (c : Canvas)
    (icons : IconMap) :
    (c.build f icons).1.elements.values =
      (c.nodeShapes f icons).map .shape ++
        (Connector.lastOfEach ((f.edges.filter f.joins).map
          (Edge.connector c.theme.connector (c.layout.slot f)))).map .connector ∧
    (c.build f icons).2 =
      { shapes := f.nodes.size
        connectors := (f.edges.filter f.joins).length
        skipped := (f.edges.filter (!f.joins ·)).map Edge.ends } := by
  have h := hmade.nodesKeyed
  have hfree : ∀ e ∈ f.edges, f.hasNode e.connectorId = false :=
    fun e he => decide_eq_false (hapart e he)
  have hdrawn : c.drawnConnectors f =
      (f.edges.filter f.joins).map (Edge.connector c.theme.connector (c.layout.slot f)) := by
    rw [drawnConnectors, drawn_eq_filter hfree]
    rfl
  have hnew : ∀ k ∈ c.drawnConnectors f, k.id ∉ (c.withNodes f icons).elements.keys := by
    intro k hk
    rw [hdrawn] at hk
    obtain ⟨e, he, rfl⟩ := List.mem_map.mp hk
    rw [keys_withNodes h]
    exact hapart e (List.mem_filter.mp he).1
  have hshapes : (c.withNodes f icons).elements.values = (c.nodeShapes f icons).map .shape := by
    rw [Table.values, entries_withNodes h, List.map_map]
    rfl
  have hleft : leftOut f.hasNode f.edges = (f.edges.filter (!f.joins ·)).map Edge.ends :=
    leftOut_eq_filter hfree
  have hcount : f.edges.length - (f.edges.filter (!f.joins ·)).length =
      (f.edges.filter f.joins).length := by
    have hsplit := List.length_eq_length_filter_add (l := f.edges) f.joins
    omega
  constructor
  · rw [elements_build h, values_insertAll_connectors hnew, hshapes, hdrawn]
  · rw [summary_build h, hleft, List.length_map, hcount]

/-- Repeated edges, a loop and an edge to no node, in one build over an older shape; the
layout asks for a negative width and for a height that is no number. -/
theorem build_of_apart_loop_and_ghost :
    let f := (((Flowchart.empty.addEdge ⟨"A", "B", none, .solid, false⟩).addEdge
      ⟨"B", "B", none, .solid, true⟩).addEdge ⟨"A", "B", none, .solid, true⟩).addLooseEdge
      ⟨"A", "Ghost", none, .solid, true⟩
    let layout := { Layout.standard with nodeWidth := -2, nodeHeight := 0 / 0 }
    let c := (new default layout).addShape { id := some "Old" }
    f.Made ∧ f.Apart ∧
      (c.build f ∅).1.elements.values.map Element.id =
        ["A", "B", "connector_A_B", "connector_B_B"] ∧
      ((c.build f ∅).1.elements.values.filterMap Element.shape?).map
        (fun s => (s.rect.width == 0, s.rect.height == 0)) = [(true, true), (true, true)] ∧
      (c.build f ∅).1.elements.values.filterMap (·.connector?.map Connector.isDirected) =
        [true, true] ∧
      (c.build f ∅).2 = ⟨2, 3, [("A", "Ghost")]⟩ := by
  intro f layout c
  have hmade : f.Made := .addLooseEdge (.addEdge (.addEdge (.addEdge (.start none) _) _) _) _
  have hapart : f.Apart := by decide
  obtain ⟨hvalues, hsummary⟩ := build_of_apart hmade hapart c ∅
  rw [hvalues, hsummary]
  exact ⟨hmade, hapart, by decide, by decide, by decide, by decide⟩

end Canvas

end FlowchartSlides
