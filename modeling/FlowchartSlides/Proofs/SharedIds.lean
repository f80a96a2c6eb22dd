import FlowchartSlides.Proofs.WellFormed

/-!
# Ids that shapes and connectors share

Shapes and connectors stand in one table, and the id of a connector is joined
from the ids of its ends by a mark that ids may contain. A connector can so take
the id of a node, which then has no shape any more, or that of a connector
between other ends. In a flowchart that was read from a text every edge joins
two nodes; `build_ofText_keeps_nodes_iff` and `build_ofText_keeps_pairs_iff` say
exactly when a build of it loses nothing, and `build_ofText_keeps_all` that ids
without the mark are safe.
-/
namespace FlowchartSlides

namespace Flowchart

variable {f : Flowchart}

theorem Made.addTo (h : f.Made) (s : Statement) : (s.addTo f).Made := by
  cases s with
  | node id label => exact h.mention id (some label)
  | edge e => exact h.addEdge e
  | subgraph _ => exact h

/-- Reading a text makes a flowchart statement by statement. -/
theorem made_ofText (text : String) : (ofText text).Made :=
  List.foldlRecOn _ _ (.start _) fun _ h s _ => h.addTo s

/-- Both ends of an edge that was read are nodes. -/
theorem joins_ofText (text : String) : ∀ e ∈ (ofText text).edges, (ofText text).joins e = true := by
  intro e he
  obtain ⟨hsource, htarget⟩ := (wellFormed_ofText text).joined e he
  rw [joins, hasNode, hasNode, decide_eq_true hsource, decide_eq_true htarget]
  rfl

/-- The pairs of ends of edges, in order of first appearance. -/
def pairs (f : Flowchart) : List (String × String) := (f.edges.map Edge.ends).eraseDups

end Flowchart

/-- The id of the connector between two ends. -/
def pairId (p : String × String) : String := connectorId p.1 p.2

theorem pairId_ends (e : Edge) : pairId e.ends = e.connectorId := rfl

theorem connectorId_eq_of_ends_eq {d e : Edge} (h : d.ends = e.ends) :
    d.connectorId = e.connectorId := by
  rw [← pairId_ends, ← pairId_ends, h]

/-- A text without the mark that joins ids to the id of a connector. -/
def Unmarked (id : String) : Prop := '_' ∉ id.toList

theorem toList_pairId (p : String × String) :
    (pairId p).toList = "connector_".toList ++ (p.1.toList ++ '_' :: p.2.toList) := by
  simp [pairId, connectorId]

/-- The id of a connector has the mark. -/
theorem Unmarked.ne_pairId {id : String} (h : Unmarked id) (p : String × String) :
    pairId p ≠ id := by
  rintro rfl
  apply h
  rw [toList_pairId]
  simp

/-- Ends without the mark can be read off the id of their connector. -/
theorem Unmarked.pairId_inj {p q : String × String} (hsource : Unmarked p.1)
    (htarget : Unmarked p.2) (h : pairId p = pairId q) : p = q := by
  have hlist := congrArg String.toList h
  rw [toList_pairId, toList_pairId, List.append_cancel_left_eq,
    List.append_cons_inj_of_notMem hsource htarget] at hlist
  exact Prod.ext (String.toList_injective hlist.1) (String.toList_injective hlist.2.2)

section Drawn

variable {held : String → Bool} {es : List Edge}

theorem mem_ends_drawn_concat {e : Edge} {p : String × String} :
    p ∈ (drawn held (es ++ [e])).map Edge.ends ↔ p ∈ (drawn held es).map Edge.ends ∨
      p = e.ends ∧ heldAfter held es e.source = true ∧ heldAfter held es e.target = true := by
  simp only [List.mem_map, mem_drawn_concat, or_and_right, exists_or]
  refine or_congr_right ⟨?_, ?_⟩
  · rintro ⟨d, ⟨rfl, hends⟩, rfl⟩
    exact ⟨rfl, hends⟩
  · rintro ⟨rfl, hends⟩
    exact ⟨e, ⟨rfl, hends⟩, rfl⟩

/-- Where all pairs of ends are drawn, an id keeps its shape when no pair takes it. -/
theorem heldAfter_iff_of_subset (hall : es.map Edge.ends ⊆ (drawn held es).map Edge.ends)
    {id : String} (hid : held id = true) :
    heldAfter held es id = true ↔ ∀ p ∈ es.map Edge.ends, pairId p ≠ id := by
  rw [heldAfter_eq_true_iff, and_iff_right hid]
  constructor
  · intro hfree p hp
    obtain ⟨d, hd, rfl⟩ := List.mem_map.mp (hall hp)
    exact (hfree d hd).symm
  · intro hfree d hd
    exact (hfree d.ends (List.mem_map_of_mem ((drawn_sublist held es).subset hd))).symm

/-- With one more edge all pairs of ends are drawn exactly when they were before and
the pair is not new, or no connector has taken an end of it. -/
theorem ends_subset_drawn_concat {e : Edge} (hsource : held e.source = true)
    (htarget : held e.target = true) :
    (es ++ [e]).map Edge.ends ⊆ (drawn held (es ++ [e])).map Edge.ends ↔
      es.map Edge.ends ⊆ (drawn held es).map Edge.ends ∧
        (e.ends ∈ es.map Edge.ends ∨
          ∀ p ∈ es.map Edge.ends, pairId p ≠ e.source ∧ pairId p ≠ e.target) := by
  have hbefore : es.map Edge.ends ⊆ (drawn held (es ++ [e])).map Edge.ends ↔
      es.map Edge.ends ⊆ (drawn held es).map Edge.ends := by
    constructor
    · intro hall p hp
      rcases mem_ends_drawn_concat.mp (hall hp) with hdrawn | ⟨rfl, hs, ht⟩
      · exact hdrawn
      · -- the new edge is drawn, so the ends that an old one shares with it still hold shapes
        obtain ⟨d, hd, hends⟩ := List.mem_map.mp hp
        obtain ⟨hsame, hsame'⟩ := Prod.mk.inj hends
        exact hends ▸ List.mem_map_of_mem (mem_drawn_of_heldAfter hd (hsame ▸ hs) (hsame' ▸ ht))
    · exact fun hall p hp => mem_ends_drawn_concat.mpr (Or.inl (hall hp))
  rw [List.map_append, List.append_subset, hbefore, List.map_singleton]
  refine and_congr_right fun hall => ?_
  have hdrawn : e.ends ∈ (drawn held es).map Edge.ends ↔ e.ends ∈ es.map Edge.ends :=
    ⟨fun h => List.map_subset _ (drawn_sublist held es).subset h, fun h => hall h⟩
  rw [List.cons_subset, and_iff_left (List.nil_subset _), mem_ends_drawn_concat,
    heldAfter_iff_of_subset hall hsource, heldAfter_iff_of_subset hall htarget, hdrawn, eq_self,
    true_and, ← forall₂_and]

/-- All pairs of ends are drawn exactly when no connector takes an end of a later pair. -/
theorem ends_subset_drawn_iff (hheld : ∀ e ∈ es, held e.source = true ∧ held e.target = true) :
    es.map Edge.ends ⊆ (drawn held es).map Edge.ends ↔
      (es.map Edge.ends).eraseDups.Pairwise fun p q => pairId p ≠ q.1 ∧ pairId p ≠ q.2 := by
  induction es using List.reverseRecOn with
  | nil => simp
  | append_singleton es e ih =>
    obtain ⟨hsource, htarget⟩ := hheld e (List.mem_append_right es (List.mem_singleton_self e))
    rw [ends_subset_drawn_concat hsource htarget,
      ih fun d hd => hheld d (List.mem_append_left [e] hd), List.map_append, List.map_singleton,
      eraseDups_concat]
    -- a repeated pair changes neither side; a new one comes last
    by_cases hmem : e.ends ∈ es.map Edge.ends
    · rw [if_pos hmem]
      exact and_iff_left (Or.inl hmem)
    · rw [if_neg hmem, List.pairwise_append]
      simp only [hmem, false_or, List.pairwise_singleton, true_and, List.mem_singleton,
        forall_eq, List.mem_eraseDups]
      rfl

/-- Of the drawn edges with one id the last counts; it has the right ends for every
edge exactly when all pairs are drawn and ids tell them apart. -/
theorem lastDrawn_iff :
    (∀ e ∈ es, ∃ d, (drawn held es).reverse.find? (·.connectorId == e.connectorId) = some d ∧
        d.ends = e.ends) ↔
      es.map Edge.ends ⊆ (drawn held es).map Edge.ends ∧
        ∀ d ∈ es, ∀ e ∈ es, d.connectorId = e.connectorId → d.ends = e.ends := by
  constructor
  · intro hlast
    constructor
    · intro p hp
      obtain ⟨e, he, rfl⟩ := List.mem_map.mp hp
      obtain ⟨d, hd, hends⟩ := hlast e he
      exact hends ▸ List.mem_map_of_mem (List.mem_reverse.mp (List.mem_of_find?_eq_some hd))
    · intro d hd e he hid
      obtain ⟨x, hx, hxd⟩ := hlast d hd
      obtain ⟨y, hy, hye⟩ := hlast e he
      rw [hid, hy] at hx
      rw [← hxd, ← hye, Option.some.inj hx]
  · rintro ⟨hall, hapart⟩ e he
    obtain ⟨d, hd, hends⟩ := List.mem_map.mp (hall (List.mem_map_of_mem he))
    have hid := connectorId_eq_of_ends_eq hends
    have hsome : ((drawn held es).reverse.find? (·.connectorId == e.connectorId)).isSome :=
      List.find?_isSome.mpr ⟨d, List.mem_reverse.mpr hd, beq_iff_eq.mpr hid⟩
    obtain ⟨x, hx⟩ := Option.isSome_iff_exists.mp hsome
    have hmem : x ∈ es :=
      (drawn_sublist held es).subset (List.mem_reverse.mp (List.mem_of_find?_eq_some hx))
    have hsame : x.connectorId = e.connectorId := by simpa using List.find?_some hx
    exact ⟨x, hx, hapart x hmem e he hsame⟩

end Drawn

theorem Keyed.mem_values_iff {t : Table Element} (h : Keyed t) {e : Element} :
    e ∈ t.values ↔ t.get? e.id = some e := by
  constructor
  · intro he
    obtain ⟨d, hd, rfl⟩ := List.mem_map.mp he
    rw [← h.ids d hd]
    exact Table.get?_of_mem hd
  · intro he
    exact List.mem_map_of_mem (Table.exists_entry_of_lookup he)

namespace Canvas

variable {f : Flowchart} {c : Canvas} {icons : IconMap}

theorem hasShape_build (h : f.NodesKeyed) (c : Canvas) (icons : IconMap) :
    (c.build f icons).1.hasShape = heldAfter f.hasNode f.edges := by
  have hnodes : (c.withNodes f icons).hasShape = f.hasNode := hasShape_withNodes h c
  rw [← hnodes]
  exact hasShape_addEdges (c.withNodes f icons) f.edges

/-- Where every edge joins two nodes, a build loses the shape of no node, and no
edge, exactly when no connector takes the id of a node. -/
theorem keeps_nodes_iff (h : f.NodesKeyed) (hjoins : ∀ e ∈ f.edges, f.joins e = true) (c : Canvas)
    (icons : IconMap) :
    ((∀ id ∈ f.nodes.keys, ((c.build f icons).1.shape? id).isSome) ∧
        (c.build f icons).2.skipped = []) ↔ f.Apart := by
  have hheld : ∀ id, ((c.build f icons).1.shape? id).isSome = heldAfter f.hasNode f.edges id := by
    rw [← hasShape_build h c icons]
    exact fun _ => rfl
  simp only [hheld]
  constructor
  · rintro ⟨hkept, -⟩ e he hid
    obtain ⟨hsource, htarget⟩ := Bool.and_eq_true_iff.mp (hjoins e he)
    have hdrawn := mem_drawn_of_heldAfter he (hkept _ (of_decide_eq_true hsource))
      (hkept _ (of_decide_eq_true htarget))
    exact (heldAfter_eq_true_iff.mp (hkept _ hid)).2 e hdrawn rfl
  · intro hapart
    constructor
    · intro id hid
      refine heldAfter_eq_true_iff.mpr ⟨decide_eq_true hid, ?_⟩
      rintro e he rfl
      exact hapart e ((drawn_sublist _ _).subset he) hid
    · rw [summary_build h, leftOut_eq_filter fun e he => decide_eq_false (hapart e he)]
      simp only [List.map_eq_nil_iff, List.filter_eq_nil_iff]
      intro e he hnot
      have hends : (f.hasNode e.source && f.hasNode e.target) = true := hjoins e he
      simp [hends] at hnot

/-- A connector stands on the canvas when it is the last one drawn with its id. -/
theorem connector_mem_build_iff (h : f.NodesKeyed) {k : Connector} :
    .connector k ∈ (c.build f icons).1.elements.values ↔
      (c.drawnConnectors f).reverse.find? (·.id == k.id) = some k := by
  have hshapes : ∀ key, (c.withNodes f icons).elements.get? key ≠ some (.connector k) := by
    intro key hget
    have hmem := List.mem_map_of_mem (f := (·.2)) (Table.exists_entry_of_lookup hget)
    obtain ⟨s, hs⟩ := exists_shape_of_mem_withNodes h c hmem
    exact absurd hs Element.noConfusion
  rw [(keyed_build c f icons).mem_values_iff, elements_build h, Table.get?_insertAll,
    lookup_reverse_map, Element.id]
  cases (c.drawnConnectors f).reverse.find? (·.id == k.id) with
  | none => simpa using hshapes k.id
  | some d => simp

/-- A build has a connector between two ends when the last edge drawn with its id has them. -/
theorem exists_connector_iff (h : f.NodesKeyed) (e : Edge) :
    (∃ k, .connector k ∈ (c.build f icons).1.elements.values ∧
        k.source = e.source ∧ k.target = e.target) ↔
      ∃ d, (drawn f.hasNode f.edges).reverse.find? (·.connectorId == e.connectorId) = some d ∧
        d.ends = e.ends := by
  have hlast : ∀ id, (c.drawnConnectors f).reverse.find? (·.id == id) =
      ((drawn f.hasNode f.edges).reverse.find? (·.connectorId == id)).map
        (Edge.connector c.theme.connector (c.layout.slot f)) := by
    intro id
    rw [drawnConnectors, ← List.map_reverse, List.find?_map]
    rfl
  simp only [connector_mem_build_iff h, hlast, Option.map_eq_some_iff]
  constructor
  · rintro ⟨k, ⟨d, hd, rfl⟩, hsource, htarget⟩
    have hends : d.ends = e.ends := Prod.ext hsource htarget
    have hid : (d.connector c.theme.connector (c.layout.slot f)).id = e.connectorId :=
      connectorId_eq_of_ends_eq hends
    rw [hid] at hd
    exact ⟨d, hd, hends⟩
  · rintro ⟨d, hd, hends⟩
    have hid := connectorId_eq_of_ends_eq hends
    obtain ⟨hsource, htarget⟩ := Prod.mk.inj hends
    rw [← hid] at hd
    exact ⟨_, ⟨d, hd, rfl⟩, hsource, htarget⟩

/-- Where every edge joins two nodes, a build has a connector for each pair of ends
exactly when all pairs have their own connector ids and none of these ids is an end
of a later pair. -/
theorem keeps_pairs_iff (h : f.NodesKeyed) (hjoins : ∀ e ∈ f.edges, f.joins e = true) (c : Canvas)
    (icons : IconMap) :
    (∀ e ∈ f.edges, ∃ k, .connector k ∈ (c.build f icons).1.elements.values ∧
        k.source = e.source ∧ k.target = e.target) ↔
      (f.pairs.map pairId).Nodup ∧ f.pairs.Pairwise fun p q => pairId p ≠ q.1 ∧ pairId p ≠ q.2 := by
  have hheld : ∀ e ∈ f.edges, f.hasNode e.source = true ∧ f.hasNode e.target = true :=
    fun e he => Bool.and_eq_true_iff.mp (hjoins e he)
  have hids : (f.pairs.map pairId).Nodup ↔
      ∀ d ∈ f.edges, ∀ e ∈ f.edges, d.connectorId = e.connectorId → d.ends = e.ends := by
    rw [Flowchart.pairs, List.nodup_map_iff_inj_on (nodup_eraseDups _)]
    simp only [List.mem_eraseDups, List.forall_mem_map]
    rfl
  simp only [exists_connector_iff h]
  rw [lastDrawn_iff, ends_subset_drawn_iff hheld, hids, and_comm]
  rfl

/-- A build of a flowchart that was read keeps a shape for each node and leaves out no
edge exactly when no connector takes the id of a node. -/
theorem build_ofText_keeps_nodes_iff (text : String) (icons : IconMap) (c : Canvas) :
    ((∀ id ∈ (Flowchart.ofText text).nodes.keys,
          ((c.build (.ofText text) icons).1.shape? id).isSome) ∧
        (c.build (.ofText text) icons).2.skipped = []) ↔ (Flowchart.ofText text).Apart :=
  keeps_nodes_iff (Flowchart.made_ofText text).nodesKeyed (Flowchart.joins_ofText text) c icons

/-- A node named like a connector is lost, and the edge from it is left out. -/
theorem build_loses_node_of_connector_name :
    "connector_A_B" ∈ (Flowchart.ofText "A --> B\nconnector_A_B --> C").nodes.keys ∧
      (((default : Canvas).build (.ofText "A --> B\nconnector_A_B --> C") ∅).1.shape?
        "connector_A_B").isSome = false ∧
      ((default : Canvas).build (.ofText "A --> B\nconnector_A_B --> C") ∅).2.skipped =
        [("connector_A_B", "C")] := by
  have hread : Flowchart.ofText "A --> B\nconnector_A_B --> C" =
      (Flowchart.empty.addEdge ⟨"A", "B", none, .solid, true⟩).addEdge
        ⟨"connector_A_B", "C", none, .solid, true⟩ := by
    decide
  rw [hread]
  decide

/-- A build of a flowchart that was read has a connector for each pair of ends of its
edges exactly when these pairs have distinct connector ids, none of them an end of
a later pair. -/
theorem build_ofText_keeps_pairs_iff (text : String) (icons : IconMap) (c : Canvas) :
    (∀ e ∈ (Flowchart.ofText text).edges,
        ∃ k, .connector k ∈ (c.build (.ofText text) icons).1.elements.values ∧
          k.source = e.source ∧ k.target = e.target) ↔
      ((Flowchart.ofText text).pairs.map pairId).Nodup ∧
        (Flowchart.ofText text).pairs.Pairwise fun p q => pairId p ≠ q.1 ∧ pairId p ≠ q.2 :=
  keeps_pairs_iff (Flowchart.made_ofText text).nodesKeyed (Flowchart.joins_ofText text) c icons

/-- Two pairs of ends that are joined to one id: only the second has a connector. -/
theorem build_loses_pair_of_joined_id :
    (Flowchart.ofText "A --> B_C\nA_B --> C").pairs = [("A", "B_C"), ("A_B", "C")] ∧
      ((default : Canvas).build (.ofText "A --> B_C\nA_B --> C") ∅).1.elements.values.filterMap
        (·.connector?.map fun k => (k.id, k.source, k.target)) =
          [("connector_A_B_C", "A_B", "C")] := by
  have hread : Flowchart.ofText "A --> B_C\nA_B --> C" =
      (Flowchart.empty.addEdge ⟨"A", "B_C", none, .solid, true⟩).addEdge
        ⟨"A_B", "C", none, .solid, true⟩ := by
    decide
  rw [hread]
  decide

/-- A build of a flowchart that was read, with ids that have no mark, loses nothing. -/
theorem build_ofText_keeps_all {text : String}
    (hids : ∀ id ∈ (Flowchart.ofText text).nodes.keys, Unmarked id) (icons : IconMap)
    (c : Canvas) :
    (∀ id ∈ (Flowchart.ofText text).nodes.keys,
        ((c.build (.ofText text) icons).1.shape? id).isSome) ∧
      (c.build (.ofText text) icons).2.skipped = [] ∧
      ∀ e ∈ (Flowchart.ofText text).edges,
        ∃ k, .connector k ∈ (c.build (.ofText text) icons).1.elements.values ∧
          k.source = e.source ∧ k.target = e.target := by
  have hkeyed := (Flowchart.made_ofText text).nodesKeyed
  have hjoins := Flowchart.joins_ofText text
  have hends : ∀ p ∈ (Flowchart.ofText text).pairs, Unmarked p.1 ∧ Unmarked p.2 := by
    intro p hp
    obtain ⟨e, he, rfl⟩ := List.mem_map.mp (List.mem_eraseDups.mp hp)
    obtain ⟨hsource, htarget⟩ := Bool.and_eq_true_iff.mp (hjoins e he)
    exact ⟨hids _ (of_decide_eq_true hsource), hids _ (of_decide_eq_true htarget)⟩
  have hapart : (Flowchart.ofText text).Apart :=
    fun e _ hmem => (hids _ hmem).ne_pairId e.ends rfl
  have hdistinct : ((Flowchart.ofText text).pairs.map pairId).Nodup :=
    (List.nodup_map_iff_inj_on (nodup_eraseDups _)).mpr fun p hp _ _ =>
      (hends p hp).1.pairId_inj (hends p hp).2
  have hfree : (Flowchart.ofText text).pairs.Pairwise fun p q => pairId p ≠ q.1 ∧ pairId p ≠ q.2 :=
    List.pairwise_of_forall_mem_list fun p _ q hq =>
      ⟨(hends q hq).1.ne_pairId p, (hends q hq).2.ne_pairId p⟩
  obtain ⟨hshapes, hskipped⟩ := (keeps_nodes_iff hkeyed hjoins c icons).mpr hapart
  exact ⟨hshapes, hskipped, (keeps_pairs_iff hkeyed hjoins c icons).mpr ⟨hdistinct, hfree⟩⟩

end Canvas

end FlowchartSlides
