import FlowchartSlides.Proofs.Operations
import FlowchartSlides.Proofs.ShapeTexts

/-!
# What operations log

Every small step adds to the history what it writes, and nothing else. Of an element
the history tells the id and an outline: whether it is a shape, and of what kind, or a
connector, and between what. So the outlines of a canvas after a run are those before
it, or none when the run began by forgetting them, with the logged ones written over
them in order.
-/
namespace FlowchartSlides

/-- What the history tells of an element. -/
inductive Outline where
  | shape (kind : ShapeKind)
  | connector (source target : String)
deriving Repr, DecidableEq

def Element.outline : Element → Outline
  | .shape s => .shape s.kind
  | .connector k => .connector k.source k.target

/-- The element that an event tells of, by its id. -/
def Event.outlined? : Event → Option (String × Outline)
  | addShape id kind => some (id, .shape kind)
  | addConnector id source target => some (id, .connector source target)
  | addText _ => none
  | build .. => none

namespace Table

variable {α β : Type}

theorem insertAll_append (t : Table α) (es fs : List (String × α)) :
    t.insertAll (es ++ fs) = (t.insertAll es).insertAll fs :=
  List.foldl_append

/-- A change that a view does not see leaves the view as it was. -/
theorem mapValues_modify (t : Table α) (key : String) {g : α → α} {f : α → β}
    (h : ∀ v, f (g v) = f v) : (t.modify key g).mapValues f = t.mapValues f := by
  have hentries : ∀ es : List (String × α),
      (amend key g es).map (fun e => (e.1, f e.2)) = es.map fun e => (e.1, f e.2) := by
    intro es
    induction es with
    | nil => rfl
    | cons e es ih =>
      rw [amend]
      split
      next he => rw [List.map_cons, List.map_cons, h, he]
      next => rw [List.map_cons, ih, List.map_cons]
  exact Table.ext (hentries t.entries)

end Table

/-- An edit keeps the kind of a shape and the ends of a connector. -/
theorem Element.Edit.outline_eq {f : Element → Element} (hf : Edit f) (e : Element) :
    (f e).outline = e.outline := by
  cases hf <;> cases e <;> rfl

namespace Canvas

variable {c c' c'' : Canvas} {start : Table Outline}

def outlines (c : Canvas) : Table Outline := c.elements.mapValues Element.outline

theorem keys_outlines (c : Canvas) : c.outlines.keys = c.elements.keys := by
  simp [outlines, Table.mapValues, Table.keys, Function.comp_def]

/-- From a canvas to one whose history has more events, which take the outlines
`start` to those of its elements. -/
def Logs (start : Table Outline) (c c' : Canvas) : Prop :=
  ∃ logged, c'.history = c.history ++ logged ∧
    c'.outlines = start.insertAll (logged.filterMap Event.outlined?)

theorem logs_refl (c : Canvas) : Logs c.outlines c c := ⟨[], (List.append_nil _).symm, rfl⟩

theorem Logs.trans (h : Logs start c c') (h' : Logs c'.outlines c' c'') : Logs start c c'' := by
  obtain ⟨logged, hhistory, houtlines⟩ := h
  obtain ⟨logged', hhistory', houtlines'⟩ := h'
  refine ⟨logged ++ logged', ?_, ?_⟩
  · rw [hhistory', hhistory, List.append_assoc]
  · rw [houtlines', houtlines, List.filterMap_append, Table.insertAll_append]

/-- A small step logs what it writes. -/
theorem logs_step (hstep : Step c c') : Logs c.outlines c c' := by
  cases hstep with
  | shape spec => exact ⟨_, rfl, (Table.insert_mapValues Element.outline _ _ _).symm⟩
  | connector spec => exact ⟨_, rfl, (Table.insert_mapValues Element.outline _ _ _).symm⟩
  | text spec => exact ⟨_, rfl, rfl⟩
  | edit id hf =>
    exact ⟨[], (List.append_nil _).symm, Table.mapValues_modify _ _ hf.outline_eq⟩
  | built f => exact ⟨_, rfl, rfl⟩

theorem logs_steps (hsteps : Steps c c') : Logs c.outlines c c' := by
  induction hsteps with
  | refl => exact logs_refl c
  | tail _ hlast ih => exact ih.trans (logs_step hlast)

/-- An operation logs what it writes on the outlines that were there, or on none. -/
theorem logs_perform (c : Canvas) (op : Operation) :
    Logs (if op.resets then ∅ else c.outlines) c (c.perform op) := by
  have hsteps := logs_steps (steps_perform c op)
  rw [base] at hsteps
  cases hresets : op.resets with
  | true =>
    rw [hresets, if_pos rfl] at hsteps
    exact hsteps
  | false =>
    rw [hresets] at hsteps
    exact hsteps

theorem logs_performAll (c : Canvas) {ops : List Operation}
    (hops : ∀ op ∈ ops, op.resets = false) : Logs c.outlines c (c.performAll ops) := by
  induction ops generalizing c with
  | nil => exact logs_refl c
  | cons op ops ih =>
    have hfirst := logs_perform c op
    rw [hops op List.mem_cons_self] at hfirst
    exact hfirst.trans (ih (c.perform op) fun o ho => hops o (List.mem_cons_of_mem op ho))

theorem prefix_history_performAll (c : Canvas) (ops : List Operation) :
    c.history <+: (c.performAll ops).history := by
  induction ops generalizing c with
  | nil => exact List.prefix_refl _
  | cons op ops ih =>
    obtain ⟨logged, hhistory, -⟩ := logs_perform c op
    have hfirst : c.history <+: (c.perform op).history := ⟨logged, hhistory.symm⟩
    exact hfirst.trans (ih (c.perform op))

end Canvas

end FlowchartSlides
