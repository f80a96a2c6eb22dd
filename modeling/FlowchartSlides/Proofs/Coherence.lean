import FlowchartSlides.Proofs.Logged

/-!
# Canvases stay coherent

Whatever is asked of a canvas, and also when it is refused, its elements stand
under their own ids, every connector has the id that its ends give it, and its
ends are there. Ids only arrive behind those that are there, until a build or
`clear` begins anew, so their order can be read off the history.
-/
namespace FlowchartSlides

namespace Table

variable {α : Type} {t : Table α} {key : String}

theorem mem_amend {f : α → α} {e : String × α} {es : List (String × α)}
    (h : e ∈ amend key f es) : e ∈ es ∨ ∃ v, (key, v) ∈ es ∧ e = (key, f v) := by
  induction es with
  | nil => exact absurd h List.not_mem_nil
  | cons d es ih =>
    rw [amend] at h
    split at h
    next hd =>
      rcases List.mem_cons.mp h with rfl | h
      · exact Or.inr ⟨d.2, hd ▸ List.mem_cons_self, rfl⟩
      · exact Or.inl (List.mem_cons_of_mem d h)
    next =>
      rcases List.mem_cons.mp h with rfl | h
      · exact Or.inl List.mem_cons_self
      · rcases ih h with h | ⟨v, hv, he⟩
        · exact Or.inl (List.mem_cons_of_mem d h)
        · exact Or.inr ⟨v, List.mem_cons_of_mem d hv, he⟩

theorem mem_keys_of_get? {v : α} (h : t.get? key = some v) : key ∈ t.keys :=
  List.mem_map_of_mem (f := (·.1)) (exists_entry_of_lookup h)

end Table

namespace Element.Edit

variable {f : Element → Element}

/-- An edit keeps the id. -/
theorem id_eq (hf : Edit f) (e : Element) : (f e).id = e.id := by
  cases hf <;> cases e <;> rfl

/-- An edited connector was a connector with the same id and ends. -/
theorem exists_connector (hf : Edit f) {e : Element} {k : Connector} (h : f e = .connector k) :
    ∃ k', e = .connector k' ∧ k.id = k'.id ∧ k.source = k'.source ∧ k.target = k'.target := by
  cases hf <;> cases e <;> cases h <;> exact ⟨_, rfl, rfl, rfl, rfl⟩

end Element.Edit

/-- Every element stands under its own id, and every connector has the id that its
ends give it and ends that are there. -/
structure Coherent (t : Table Element) : Prop extends Keyed t where
  named : ∀ k, .connector k ∈ t.values → k.id = connectorId k.source k.target
  joined : ∀ k, .connector k ∈ t.values → k.source ∈ t.keys ∧ k.target ∈ t.keys

theorem coherent_empty : Coherent ∅ :=
  ⟨keyed_empty, fun _ h => absurd h List.not_mem_nil, fun _ h => absurd h List.not_mem_nil⟩

namespace Coherent

variable {t : Table Element}

/-- A new element keeps a table coherent when it is a shape, or a connector with the
right id between ends that are there. -/
theorem insert (h : Coherent t) {id : String} {e : Element} (hid : id = e.id)
    (hnew : ∀ k, e = .connector k →
      k.id = connectorId k.source k.target ∧ k.source ∈ t.keys ∧ k.target ∈ t.keys) :
    Coherent (t.insert id e) := by
  have hwired : ∀ k, .connector k ∈ (t.insert id e).values →
      k.id = connectorId k.source k.target ∧ k.source ∈ t.keys ∧ k.target ∈ t.keys := by
    intro k hk
    rcases Table.mem_values_insert hk with heq | hk
    · exact hnew k heq.symm
    · exact ⟨h.named k hk, h.joined k hk⟩
  refine ⟨h.toKeyed.insert hid, fun k hk => (hwired k hk).1, fun k hk => ?_⟩
  obtain ⟨-, hsource, htarget⟩ := hwired k hk
  exact ⟨Table.mem_keys_insert_iff.mpr (Or.inl hsource),
    Table.mem_keys_insert_iff.mpr (Or.inl htarget)⟩

/-- An edit changes neither ids nor ends. -/
theorem modify (h : Coherent t) {f : Element → Element} (hf : Element.Edit f) (id : String) :
    Coherent (t.modify id f) := by
  have hids : ∀ e ∈ (t.modify id f).entries, e.1 = e.2.id := by
    intro e he
    rcases Table.mem_amend he with he | ⟨v, hv, rfl⟩
    · exact h.ids e he
    · rw [hf.id_eq]
      exact h.ids _ hv
  have hold : ∀ k, .connector k ∈ (t.modify id f).values → ∃ k', .connector k' ∈ t.values ∧
      k.id = k'.id ∧ k.source = k'.source ∧ k.target = k'.target := by
    intro k hk
    obtain ⟨e, he, heq⟩ := List.mem_map.mp hk
    rcases Table.mem_amend he with he | ⟨v, hv, rfl⟩
    · exact ⟨k, heq ▸ List.mem_map_of_mem he, rfl, rfl, rfl⟩
    · obtain ⟨k', rfl, hsame⟩ := hf.exists_connector heq
      exact ⟨k', List.mem_map_of_mem (f := (·.2)) hv, hsame⟩
  refine ⟨⟨hids⟩, fun k hk => ?_, fun k hk => ?_⟩
  · obtain ⟨k', hk', hid, hsource, htarget⟩ := hold k hk
    rw [hid, hsource, htarget, h.named k' hk']
  · obtain ⟨k', hk', -, hsource, htarget⟩ := hold k hk
    rw [hsource, htarget, Table.keys_modify]
    exact h.joined k' hk'

end Coherent

namespace Canvas

variable {c c' : Canvas}

theorem mem_keys_of_shape? {id : String} {s : Shape} (h : c.shape? id = some s) :
    id ∈ c.elements.keys := by
  obtain ⟨e, he, -⟩ := Option.bind_eq_some_iff.mp h
  exact Table.mem_keys_of_get? he

/-- Every small step keeps a canvas coherent. -/
theorem coherent_step (hstep : Step c c') (h : Coherent c.elements) : Coherent c'.elements := by
  cases hstep with
  | shape spec => exact h.insert rfl fun k hk => absurd hk (by simp)
  | connector spec hsource htarget =>
    refine h.insert rfl ?_
    rintro k ⟨⟩
    exact ⟨rfl, mem_keys_of_shape? hsource, mem_keys_of_shape? htarget⟩
  | text spec => exact h
  | edit id hf => exact h.modify hf id
  | built f => exact h

/-- Every run from an empty canvas leaves it coherent. -/
theorem coherent_performAll (theme : Theme) (layout : Layout) (ops : List Operation) :
    Coherent ((new theme layout).performAll ops).elements :=
  keep_of_performAll (P := fun c => Coherent c.elements) (fun _ _ => coherent_empty)
    (fun _ _ => coherent_step) ops coherent_empty

end Canvas

/-- The id of the element that an event tells of. -/
def Event.created? : Event → Option String
  | addShape id _ => some id
  | addConnector id _ _ => some id
  | addText _ => none
  | build .. => none

namespace Canvas

/-- From a canvas on which `start` stands to one on which the ids of later events have
joined it, each at its first arrival; the history only grows. -/
def Grows (start : List String) (c c' : Canvas) : Prop :=
  ∃ logged, c'.history = c.history ++ logged ∧
    c'.elements.keys = (start ++ logged.filterMap Event.created?).eraseDups

variable {start : List String} {c'' : Canvas}

theorem Grows.trans (h : Grows start c c') (h' : Grows c'.elements.keys c' c'') :
    Grows start c c'' := by
  obtain ⟨logged, hhistory, hkeys⟩ := h
  obtain ⟨logged', hhistory', hkeys'⟩ := h'
  refine ⟨logged ++ logged', ?_, ?_⟩
  · rw [hhistory', hhistory, List.append_assoc]
  · rw [hkeys', hkeys, eraseDups_eraseDups_append, List.filterMap_append, List.append_assoc]

/-- What is logged and written lets the ids grow. -/
theorem Logs.grows {outlines : Table Outline} (h : Logs outlines c c') :
    Grows outlines.keys c c' := by
  obtain ⟨logged, hhistory, houtlines⟩ := h
  have hids : (logged.filterMap Event.outlined?).map (·.1) = logged.filterMap Event.created? := by
    rw [List.map_filterMap]
    refine List.filterMap_congr fun e _ => ?_
    cases e <;> rfl
  refine ⟨logged, hhistory, ?_⟩
  rw [← keys_outlines, houtlines, Table.keys_insertAll, hids]

/-- An operation lets the ids grow from those that were there, or from none. -/
theorem grows_perform (c : Canvas) (op : Operation) :
    Grows (if op.resets then [] else c.elements.keys) c (c.perform op) := by
  have hlogs := logs_perform c op
  cases hresets : op.resets with
  | true =>
    rw [hresets, if_pos rfl] at hlogs
    exact hlogs.grows
  | false =>
    rw [hresets] at hlogs
    exact keys_outlines c ▸ hlogs.grows

theorem grows_performAll (c : Canvas) {ops : List Operation}
    (hops : ∀ op ∈ ops, op.resets = false) : Grows c.elements.keys c (c.performAll ops) :=
  keys_outlines c ▸ (logs_performAll c hops).grows

theorem Grows.prefix_keys (h : Grows c.elements.keys c c') :
    c.elements.keys <+: c'.elements.keys := by
  obtain ⟨logged, -, hkeys⟩ := h
  rw [hkeys]
  exact prefix_eraseDups_append c.elements.nodup_keys _

/-- After any run from an empty canvas, with all its failures, the ids are distinct and
the elements coherent; an operation that does not forget them leaves their ids in front, in
order; and from any operation on, as long as no later one forgets elements, the
ids stand in the order in which the history first tells of them. -/
theorem performAll_invariant (theme : Theme) (layout : Layout) (ops : List Operation) :
    let c := (new theme layout).performAll ops
    c.elements.keys.Nodup ∧ Coherent c.elements ∧
      (∀ op, op.resets = false → c.elements.keys <+: (c.perform op).elements.keys) ∧
      ∀ op later, (∀ o ∈ later, o.resets = false) →
        Grows (if op.resets then [] else c.elements.keys) c (c.performAll (op :: later)) := by
  intro c
  refine ⟨c.elements.nodup_keys, coherent_performAll theme layout ops, fun op hop => ?_,
    fun op later hlater => ?_⟩
  · have hgrows := grows_perform c op
    rw [hop] at hgrows
    exact hgrows.prefix_keys
  · exact (grows_perform c op).trans (grows_performAll (c.perform op) hlater)

/-- A run with a refused connector and with adjustments that fail midway; then a shape
takes the place of a connector, and a new connector comes last. -/
theorem performAll_invariant_after_failures :
    let c := (new default default).performAll
      [.addShape { id := some "X" },
        .build (Flowchart.empty.addEdge ⟨"A", "B", none, .solid, true⟩) ∅,
        .addConnector { source := "A", target := "X" },
        .adjust [.addNode { id := some "C" }, .moveNode "connector_A_B" 1 2,
          .addConnector { source := "A", target := "connector_A_B" },
          .addNode { id := some "D" }]]
    c.elements.keys = ["A", "B", "connector_A_B", "C"] ∧ Coherent c.elements ∧
      c.elements.keys <+:
        (c.perform (.addShape { id := some "connector_A_B" })).elements.keys ∧
      Grows c.elements.keys c (c.performAll [.addShape { id := some "connector_A_B" },
        .addConnector { source := "A", target := "connector_A_B" }]) := by
  intro c
  obtain ⟨-, hcoherent, hprefix, hgrows⟩ := performAll_invariant default default
    [.addShape { id := some "X" },
      .build (Flowchart.empty.addEdge ⟨"A", "B", none, .solid, true⟩) ∅,
      .addConnector { source := "A", target := "X" },
      .adjust [.addNode { id := some "C" }, .moveNode "connector_A_B" 1 2,
        .addConnector { source := "A", target := "connector_A_B" },
        .addNode { id := some "D" }]]
  exact ⟨by decide, hcoherent, hprefix _ rfl, hgrows (.addShape { id := some "connector_A_B" })
    [.addConnector { source := "A", target := "connector_A_B" }] (by decide)⟩

end Canvas

end FlowchartSlides
