import FlowchartSlides.Proofs.Contents
import FlowchartSlides.Proofs.WellFormed

/-!
# Text behind a flowchart

What stands behind a text on lines of its own only adds to its flowchart: edges
come behind edges and new nodes behind old ones, and a label changes only where
it is defined again. Since a place on a slide depends on the direction and on the
order of first mention, nodes that are there already do not move.
-/
namespace FlowchartSlides

/-- Whether some line is not blank. -/
def Text.holdsLine (cs : List Char) : Bool := (lines cs).any (!allBlank ·)

theorem Text.contents_eq_nil_iff {cs : List Char} : contents cs = [] ↔ holdsLine cs = false := by
  rw [contents, holdsLine, List.filter_eq_nil_iff, List.forall_mem_map, List.any_eq_false]
  simp only [allBlank_eq_isEmpty_trim]

/-- The rectangles of nodes by id, in order. -/
def Layout.placed (layout : Layout) (f : Flowchart) : Table Rect :=
  Table.ofList ((layout.place f).map fun p => (p.1.id, p.2))

namespace Flowchart

/-- How a flowchart goes on when statements are added: edges and new ids come behind
what is there, and ids that are not mentioned again keep their labels. -/
structure Continues (f g h : Flowchart) : Prop where
  edges : h.edges = f.edges ++ g.edges
  keys : h.nodes.keys = f.nodes.keys ++ g.nodes.keys.filter (· ∉ f.nodes.keys)
  kept : ∀ id ∈ f.nodes.keys, id ∉ g.nodes.keys → h.labelOf? id = f.labelOf? id
  defined : ∀ id label, g.labelOf? id = some label → label ≠ id → h.labelOf? id = some label

theorem keys_described_append (d d' d'' : Option Direction) (S T : List Statement) :
    (described d (S ++ T)).nodes.keys = (described d' S).nodes.keys ++
      (described d'' T).nodes.keys.filter (· ∉ (described d' S).nodes.keys) := by
  have hnew : (mentioned T).removeAll (mentioned S) =
      (mentioned T).filter (· ∉ (mentioned S).eraseDups) := by
    rw [List.removeAll]
    apply List.filter_congr
    intro id _
    rw [List.elem_eq_mem, ← decide_not]
    simp only [List.mem_eraseDups]
  rw [keys_described, keys_described, keys_described, mentioned, List.flatMap_append, ← mentioned,
    ← mentioned, List.eraseDups_append, hnew, eraseDups_filter]

/-- Adding statements continues what the statements before describe. -/
theorem described_append (d d' d'' : Option Direction) (S T : List Statement) :
    Continues (described d' S) (described d'' T) (described d (S ++ T)) where
  edges := List.filterMap_append
  keys := keys_described_append d d' d'' S T
  kept := by
    intro id hid hnew
    rw [keys_described, List.mem_eraseDups] at hid hnew
    have hmem : id ∈ mentioned (S ++ T) := by
      rw [mentioned, List.flatMap_append]
      exact List.mem_append_left _ hid
    rw [labelOf?_described, labelOf?_described, if_pos hid, if_pos hmem, lastLabel?_append,
      lastLabel?_eq_none hnew, Option.none_or]
  defined := by
    intro id label hlabel hne
    rw [labelOf?_described] at hlabel
    split at hlabel
    next hid =>
      have hmem : id ∈ mentioned (S ++ T) := by
        rw [mentioned, List.flatMap_append]
        exact List.mem_append_right _ hid
      -- a label other than the id was defined
      cases hlast : lastLabel? T id with
      | none =>
        rw [hlast] at hlabel
        exact absurd (Option.some.inj hlabel).symm hne
      | some last =>
        rw [hlast] at hlabel
        rw [labelOf?_described, if_pos hmem, lastLabel?_append, hlast, Option.some_or]
        exact hlabel
    next => simp at hlabel

/-- The place of a node gives its rectangle. -/
theorem get?_placed {f : Flowchart} (h : f.NodesKeyed) (layout : Layout) {id : String}
    (hid : id ∈ f.nodes.keys) :
    (layout.placed f).get? id = some (layout.nodeRect f.direction (f.nodes.keys.idxOf id)) := by
  have hplace : (layout.place f).map (fun p => (p.1.id, p.2)) =
      f.nodes.keys.mapIdx fun i id => (id, layout.nodeRect f.direction i) := by
    rw [← h.map_id, Layout.place, map_mapIdx, mapIdx_map]
  have hkeys : ((layout.place f).map fun p => (p.1.id, p.2)).map (·.1) = f.nodes.keys := by
    rw [List.map_map, ← h.map_id, ← layout.map_fst_place f, List.map_map]
    rfl
  have hentries : (layout.placed f).entries =
      f.nodes.keys.mapIdx fun i id => (id, layout.nodeRect f.direction i) :=
    (Table.entries_ofList (hkeys ▸ f.nodes.nodup_keys)).trans hplace
  have hlt : f.nodes.keys.idxOf id < f.nodes.keys.length := List.idxOf_lt_length_iff.mpr hid
  have hmem : (id, layout.nodeRect f.direction (f.nodes.keys.idxOf id)) ∈
      (layout.placed f).entries := by
    rw [hentries, List.mem_mapIdx]
    exact ⟨_, hlt, by rw [List.getElem_idxOf hlt]⟩
  exact Table.get?_of_mem hmem

/-- Nodes that come behind others in the same direction move none of them. -/
theorem get?_placed_congr {f h : Flowchart} (hf : f.NodesKeyed) (hh : h.NodesKeyed)
    (hdirection : h.direction = f.direction) (hkeys : f.nodes.keys <+: h.nodes.keys)
    (layout : Layout) {id : String} (hid : id ∈ f.nodes.keys) :
    (layout.placed h).get? id = (layout.placed f).get? id := by
  obtain ⟨new, hnew⟩ := hkeys
  have hidx : h.nodes.keys.idxOf id = f.nodes.keys.idxOf id := by
    rw [← hnew, List.idxOf_append, if_pos hid]
  rw [get?_placed hf layout hid, get?_placed hh layout (hnew ▸ List.mem_append_left new hid),
    hdirection, hidx]

theorem contents_lines_append (a b : String) : Text.contents (a ++ "\n" ++ b).toList =
    Text.contents a.toList ++ Text.contents b.toList := by
  have hfeed : "\n".toList = ['\n'] := rfl
  rw [String.toList_append, String.toList_append, hfeed, List.append_assoc, List.singleton_append,
    Text.contents_append]

theorem continues_append (a b : String) :
    Continues (ofText a) (ofText b) (ofText (a ++ "\n" ++ b)) := by
  rw [ofText_eq_ofContents, ofText_eq_ofContents, ofText_eq_ofContents, contents_lines_append]
  simp only [ofContents, List.filter_append, List.filterMap_append]
  exact described_append _ _ _ _ _

theorem direction_append (a b : String) :
    (ofText (a ++ "\n" ++ b)).direction =
      if Text.holdsLine a.toList then (ofText a).direction else (ofText b).direction := by
  have hdirection : ∀ text, (ofText text).direction =
      (Text.contents text.toList).head?.bind headerDirection? := by
    intro text
    rw [ofText_eq_ofContents]
    rfl
  rw [hdirection, hdirection, hdirection, contents_lines_append]
  cases hline : Text.holdsLine a.toList with
  | true =>
    have hne : Text.contents a.toList ≠ [] := by
      rw [Ne, Text.contents_eq_nil_iff, hline]
      exact Bool.noConfusion
    rw [List.head?_append_of_ne_nil _ hne, if_pos rfl]
  | false =>
    rw [Text.contents_eq_nil_iff.mpr hline, List.nil_append, if_neg Bool.false_ne_true]

/-- Text on lines of its own behind a text continues the flowchart of it. The direction
is that of the first text that holds a line; where it is the first text, all its
nodes stay where they were. -/
theorem ofText_append (a b : String) :
    Continues (ofText a) (ofText b) (ofText (a ++ "\n" ++ b)) ∧
    (ofText (a ++ "\n" ++ b)).direction =
      (if Text.holdsLine a.toList then (ofText a).direction else (ofText b).direction) ∧
    (Text.holdsLine a.toList = true → ∀ (layout : Layout), ∀ id ∈ (ofText a).nodes.keys,
      ∃ rect, (layout.placed (ofText a)).get? id = some rect ∧
        (layout.placed (ofText (a ++ "\n" ++ b))).get? id = some rect) := by
  have hcontinues := continues_append a b
  have hdirection := direction_append a b
  refine ⟨hcontinues, hdirection, fun hline layout id hid => ?_⟩
  rw [if_pos hline] at hdirection
  have hfirst : (ofText a).nodes.keys <+: (ofText (a ++ "\n" ++ b)).nodes.keys :=
    hcontinues.keys ▸ List.prefix_append _ _
  have hkeyed : ∀ text, (ofText text).NodesKeyed := fun text => (wellFormed_ofText text).toNodesKeyed
  refine ⟨_, get?_placed (hkeyed a) layout hid, ?_⟩
  rw [get?_placed_congr (hkeyed a) (hkeyed _) hdirection hfirst layout hid,
    get?_placed (hkeyed a) layout hid]

/-- A node that is defined behind the seam keeps its place; the second header does
not count. -/
theorem ofText_append_defined :
    let a := "flowchart LR\nA --> B\r"
    let b := "flowchart TD\nB[Two]\nC --> A"
    Text.holdsLine a.toList = true ∧ (ofText (a ++ "\n" ++ b)).labelOf? "B" = some "Two" ∧
      ∃ rect, (Layout.standard.placed (ofText a)).get? "B" = some rect ∧
        (Layout.standard.placed (ofText (a ++ "\n" ++ b))).get? "B" = some rect := by
  intro a b
  obtain ⟨hcontinues, -, hplaced⟩ := ofText_append a b
  have hline : Text.holdsLine a.toList = true := by decide
  have hlabel : (ofText b).labelOf? "B" = some "Two" := by decide
  have hid : "B" ∈ (ofText a).nodes.keys := by decide
  exact ⟨hline, hcontinues.defined "B" "Two" hlabel (by decide), hplaced hline .standard "B" hid⟩

end Flowchart

end FlowchartSlides
