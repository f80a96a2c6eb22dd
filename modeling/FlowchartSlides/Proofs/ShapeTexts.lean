import FlowchartSlides.Proofs.Described
import FlowchartSlides.Slide.Canvas
import Mathlib.Data.List.Basic

/-!
# Texts of shapes

What a build draws depends on labels in one place only, the texts of the shapes.
`retext` writes other texts into the shapes of a canvas, and every step of a
build can be made before or after it. Elements stand under their own ids, so two
canvases that differ in texts look alike exactly when the texts of the shapes
agree id by id.
-/
namespace FlowchartSlides

namespace Table

variable {α β : Type}

/-- The same keys with other values. -/
def mapValues (f : α → β) (t : Table α) : Table β where
  entries := t.entries.map fun e => (e.1, f e.2)
  nodup := by
    rw [List.map_map]
    exact t.nodup

theorem values_mapValues (f : α → β) (t : Table α) : (t.mapValues f).values = t.values.map f := by
  simp [mapValues, values, Function.comp_def]

theorem lookup_mapValues (f : α → β) (key : String) (es : List (String × α)) :
    lookup key (es.map fun e => (e.1, f e.2)) = (lookup key es).map f := by
  induction es with
  | nil => rfl
  | cons e es ih =>
    simp only [List.map_cons, lookup]
    split
    next => rfl
    next => exact ih

theorem get?_mapValues (f : α → β) (t : Table α) (key : String) :
    (t.mapValues f).get? key = (t.get? key).map f :=
  lookup_mapValues f key t.entries

theorem write_mapValues (f : α → β) (key : String) (v : α) (es : List (String × α)) :
    write key (f v) (es.map fun e => (e.1, f e.2)) =
      (write key v es).map fun e => (e.1, f e.2) := by
  induction es with
  | nil => rfl
  | cons e es ih =>
    simp only [List.map_cons, write]
    split
    next => rfl
    next => rw [ih, List.map_cons]

theorem insert_mapValues (f : α → β) (t : Table α) (key : String) (v : α) :
    (t.mapValues f).insert key (f v) = (t.insert key v).mapValues f :=
  Table.ext (write_mapValues f key v t.entries)

theorem mem_write {key : String} {v : α} {e : String × α} {es : List (String × α)}
    (h : e ∈ write key v es) : e = (key, v) ∨ e ∈ es := by
  induction es with
  | nil => exact Or.inl (List.mem_singleton.mp h)
  | cons d es ih =>
    rw [write] at h
    split at h
    next => exact (List.mem_cons.mp h).imp_right (List.mem_cons_of_mem d)
    next =>
      rcases List.mem_cons.mp h with rfl | h
      · exact Or.inr List.mem_cons_self
      · exact (ih h).imp_right (List.mem_cons_of_mem d)

theorem mem_values_insert {t : Table α} {key : String} {v w : α}
    (h : w ∈ (t.insert key v).values) : w = v ∨ w ∈ t.values := by
  obtain ⟨e, he, rfl⟩ := List.mem_map.mp h
  rcases mem_write he with rfl | he
  · exact Or.inl rfl
  · exact Or.inr (List.mem_map_of_mem he)

theorem mem_values_insertAll {t : Table α} {es : List (String × α)} {w : α}
    (h : w ∈ (t.insertAll es).values) : w ∈ t.values ∨ w ∈ es.map (·.2) := by
  induction es using List.reverseRecOn with
  | nil => exact Or.inl h
  | append_singleton es e ih =>
    rw [insertAll_concat] at h
    rw [List.map_append]
    rcases mem_values_insert h with rfl | h
    · exact Or.inr (List.mem_append_right _ List.mem_cons_self)
    · exact (ih h).imp_right (List.mem_append_left _)

theorem mem_keys_insert_iff {t : Table α} {key other : String} {v : α} :
    other ∈ (t.insert key v).keys ↔ other ∈ t.keys ∨ other = key := by
  rw [keys_insert]
  split
  next hkey => exact ⟨Or.inl, fun h => h.elim id fun heq => heq ▸ hkey⟩
  next => rw [List.mem_append, List.mem_singleton]

theorem exists_entry_of_lookup {key : String} {v : α} {es : List (String × α)}
    (h : lookup key es = some v) : (key, v) ∈ es := by
  induction es with
  | nil => simp [lookup] at h
  | cons e es ih =>
    rw [lookup] at h
    split at h
    next hk =>
      obtain rfl := Option.some.inj h
      rw [← hk]
      exact List.mem_cons_self
    next => exact List.mem_cons_of_mem e (ih h)

end Table

/-- Every element stands under its own id. -/
structure Keyed (t : Table Element) : Prop where
  ids : ∀ e ∈ t.entries, e.1 = e.2.id

theorem keyed_empty : Keyed ∅ := ⟨fun _ he => absurd he List.not_mem_nil⟩

theorem Keyed.insert {t : Table Element} (h : Keyed t) {key : String} {e : Element}
    (hid : key = e.id) : Keyed (t.insert key e) := by
  refine ⟨fun d hd => ?_⟩
  rcases Table.mem_write hd with rfl | hd
  · exact hid
  · exact h.ids d hd

namespace Canvas

variable {c : Canvas}

theorem keyed_addShape (h : Keyed c.elements) (spec : ShapeSpec) :
    Keyed (c.addShape spec).elements :=
  h.insert rfl

theorem keyed_addConnector {c' : Canvas} (h : Keyed c.elements) {spec : ConnectorSpec}
    (hadd : c.addConnector spec = .ok c') : Keyed c'.elements := by
  unfold addConnector at hadd
  split at hadd
  next =>
    obtain rfl := Except.ok.inj hadd
    exact h.insert rfl
  next => simp at hadd

theorem keyed_addNodes (icons : IconMap) (placed : List (Node × Rect)) (h : Keyed c.elements) :
    Keyed (addNodes icons c placed).elements := by
  induction placed generalizing c with
  | nil => exact h
  | cons p placed ih => exact ih (keyed_addShape h _)

theorem keyed_addEdges (es : List Edge) (h : Keyed c.elements) :
    Keyed (addEdges c es).1.elements := by
  induction es generalizing c with
  | nil => exact h
  | cons e es ih =>
    rw [addEdges]
    split
    next c' hadd => exact ih (keyed_addConnector h hadd)
    next => exact ih h

/-- A build starts from no elements, so its elements stand under their ids. -/
theorem keyed_build (c : Canvas) (f : Flowchart) (icons : IconMap) :
    Keyed (c.build f icons).1.elements :=
  keyed_addEdges f.edges (keyed_addNodes icons _ keyed_empty)

end Canvas

/-- The element with another text, by its id; a connector has none. -/
def Element.retext (text : String → String) : Element → Element
  | .shape s => .shape { s with text := text s.id }
  | .connector c => .connector c

namespace Canvas

variable {text : String → String}

/-- The canvas with other texts in its shapes. -/
def retext (text : String → String) (c : Canvas) : Canvas :=
  { c with elements := c.elements.mapValues (Element.retext text) }

theorem shape?_retext (c : Canvas) (id : String) :
    (c.retext text).shape? id = (c.shape? id).map fun s => { s with text := text s.id } := by
  unfold shape? get? retext
  rw [Table.get?_mapValues]
  cases c.elements.get? id with
  | none => rfl
  | some e => cases e <;> rfl

/-- A node is drawn the same way but for its text. -/
theorem addShape_retext (c : Canvas) (icons : IconMap) {icons' : IconMap} {node node' : Node}
    (rect : Rect) (hid : node'.id = node.id) (htext : text node.id = icons'.labelFor node') :
    (c.retext text).addShape (nodeSpec icons' node' rect) =
      (c.addShape (nodeSpec icons node rect)).retext text := by
  simp only [addShape, nodeSpec, shapeId, Option.getD_some, hid, ← htext, retext,
    ← Table.insert_mapValues]
  rfl

/-- Connectors look at the rectangles of shapes alone. -/
theorem addConnector_retext (c : Canvas) (spec : ConnectorSpec) :
    (c.retext text).addConnector spec = (c.addConnector spec).map (Canvas.retext text) := by
  unfold addConnector
  rw [shape?_retext, shape?_retext]
  cases c.shape? spec.source with
  | none => rfl
  | some source =>
    cases c.shape? spec.target with
    | none => rfl
    | some target =>
      simp only [Option.map_some, Except.map, retext, ← Table.insert_mapValues]
      rfl

theorem addEdges_retext (c : Canvas) (es : List Edge) :
    addEdges (c.retext text) es = ((addEdges c es).1.retext text, (addEdges c es).2) := by
  induction es generalizing c with
  | nil => rfl
  | cons e es ih =>
    rw [addEdges, addEdges, addConnector_retext]
    cases c.addConnector (edgeSpec e) with
    | ok c' => exact ih c'
    | error m => simp only [Except.map, ih c]

/-- The run over the placed nodes: the texts alone tell two lists of labels apart. -/
theorem addNodes_retext {icons icons' : IconMap} {node node' : String → Node}
    (hid : ∀ id, (node id).id = id) (hid' : ∀ id, (node' id).id = id)
    (htext : ∀ id, text id = icons'.labelFor (node' id)) (c : Canvas)
    (placed : List (String × Rect)) :
    addNodes icons' (c.retext text) (placed.map fun p => (node' p.1, p.2)) =
      (addNodes icons c (placed.map fun p => (node p.1, p.2))).retext text := by
  induction placed generalizing c with
  | nil => rfl
  | cons p placed ih =>
    have hsame : (node' p.1).id = (node p.1).id := by rw [hid, hid']
    have hlabel : text (node p.1).id = icons'.labelFor (node' p.1) := by rw [hid, htext]
    have hstep := addShape_retext c icons p.2 hsame hlabel
    simp only [List.map_cons, addNodes]
    rw [hstep, ih]

/-- A build of other labels and icons draws the same canvas but for the texts. -/
theorem build_retext (c : Canvas) {d : Option Direction} {ids : List String} {es : List Edge}
    {node node' : String → Node} {icons icons' : IconMap} (hid : ∀ id, (node id).id = id)
    (hid' : ∀ id, (node' id).id = id) (htext : ∀ id, text id = icons'.labelFor (node' id)) :
    (c.build ⟨d, Table.tabulate ids node', es⟩ icons').1 =
      (c.build ⟨d, Table.tabulate ids node, es⟩ icons).1.retext text := by
  have hplace : ∀ value : String → Node, c.layout.place ⟨d, Table.tabulate ids value, es⟩ =
      (ids.eraseDups.mapIdx fun i id => (id, c.layout.nodeRect d i)).map
        fun p => (value p.1, p.2) := by
    intro value
    rw [Layout.place, Table.values, Table.tabulate, List.map_map, mapIdx_map, map_mapIdx]
    rfl
  have hsize : ∀ value : String → Node, (Table.tabulate ids value).size = ids.eraseDups.length := by
    intro value
    simp [Table.tabulate, Table.size]
  have hclear : c.clear = c.clear.retext text := rfl
  simp only [build, hplace, hsize]
  rw [hclear, addNodes_retext hid hid' htext, addEdges_retext, ← hclear]
  rfl

/-- Two ways to write texts look alike exactly when they agree on every shape. -/
theorem views_retext_eq_iff (text text' : String → String) {c : Canvas} (h : Keyed c.elements) :
    (c.retext text).views = (c.retext text').views ↔
      ∀ id, (c.shape? id).isSome → text id = text' id := by
  have hviews : ∀ t : String → String, (c.retext t).views =
      c.elements.values.map fun e =>
        ⟨(e.retext t).id, (e.retext t).kind, (e.retext t).text, (e.retext t).box⟩ := by
    intro t
    rw [views, retext, Table.values_mapValues, List.map_map]
    rfl
  rw [hviews, hviews, List.map_inj_left]
  constructor
  · intro hall id hsome
    obtain ⟨s, hs⟩ := Option.isSome_iff_exists.mp hsome
    obtain ⟨e, he, hes⟩ := Option.bind_eq_some_iff.mp hs
    cases e with
    | connector k => simp [Element.shape?] at hes
    | shape s' =>
      have hmem := Table.exists_entry_of_lookup he
      have hkey : id = s'.id := h.ids _ hmem
      have hview := hall _ (List.mem_map_of_mem hmem)
      rw [hkey]
      exact (View.mk.inj hview).2.2.1
  · intro hall e he
    cases e with
    | connector k => rfl
    | shape s =>
      obtain ⟨⟨key, e⟩, hmem, heq⟩ := List.mem_map.mp he
      simp only at heq
      subst heq
      have hkey : key = s.id := h.ids _ hmem
      have hfind := Table.get?_of_mem hmem
      have hsome : (c.shape? s.id).isSome := by
        rw [← hkey, shape?, get?, hfind]
        rfl
      simp only [Element.retext, hall s.id hsome]

end Canvas

end FlowchartSlides
