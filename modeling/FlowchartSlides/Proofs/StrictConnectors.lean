import FlowchartSlides.Proofs.CommandLists
import FlowchartSlides.Proofs.Forgetting
import FlowchartSlides.Proofs.Places

/-!
# Connectors are strict

A connector is refused exactly when an end is absent or is itself a connector, and then
nothing has happened. One that is drawn is the only element that is new or different. The
id of a connector stands in the same table as its ends and is joined from arbitrary texts;
it is longer than both of them, so it is neither end, and the shapes between which the
connector was drawn are still there, also when it took the place of a third one.
-/
namespace FlowchartSlides

/-- The ids of both ends are parts of the id of a connector. -/
theorem length_connectorId (source target : String) :
    (connectorId source target).length = source.length + target.length + 11 := by
  have hfirst : "connector_".length = 10 := rfl
  have hmark : "_".length = 1 := rfl
  rw [connectorId, String.length_append, String.length_append, String.length_append, hfirst, hmark]
  omega

theorem source_ne_connectorId (source target : String) : source ≠ connectorId source target := by
  intro h
  have hlength := length_connectorId source target
  rw [← h] at hlength
  omega

theorem target_ne_connectorId (source target : String) : target ≠ connectorId source target := by
  intro h
  have hlength := length_connectorId source target
  rw [← h] at hlength
  omega

namespace Canvas

variable {c c' : Canvas} {spec : ConnectorSpec}

theorem get?_of_shape? {id : String} {s : Shape} (h : c.shape? id = some s) :
    c.get? id = some (.shape s) := by
  obtain ⟨e, he, hshape⟩ := Option.bind_eq_some_iff.mp h
  cases e with
  | shape s' => rw [he, Option.some.inj hshape]
  | connector k => exact absurd hshape (by simp [Element.shape?])

/-- An id names no shape when it is absent or names a connector. -/
theorem shape?_eq_none_iff {id : String} :
    c.shape? id = none ↔ id ∉ c.elements.keys ∨ ∃ k, c.get? id = some (.connector k) := by
  constructor
  · intro h
    by_cases hmem : id ∈ c.elements.keys
    · obtain ⟨e, he⟩ := Table.exists_get?_of_mem_keys hmem
      cases e with
      | shape s => simp [shape?, get?, he, Element.shape?] at h
      | connector k => exact Or.inr ⟨k, he⟩
    · exact Or.inl hmem
  · rintro (habsent | ⟨k, hk⟩)
    · rw [shape?, get?, Table.get?_eq_none habsent, Option.bind_none]
    · rw [shape?, hk, Option.bind_some, Element.shape?]

/-- From a canvas to the same canvas with a connector between two of its shapes: it runs
between the rectangles that they have, it is the one element that is new or different, in
the place of its id if there was one and behind all others if not, and it is the one new
event. -/
structure Connects (c c' : Canvas) (spec : ConnectorSpec) (source target : Shape)
    (k : Connector) : Prop where
  id : k.id = connectorId spec.source spec.target
  ends : k.source = spec.source ∧ k.target = spec.target
  route : k.route = Route.between source.rect target.rect
  written : (∃ old, c.elements.Replaces c'.elements k.id old (.connector k)) ∨
    c.elements.Appends c'.elements k.id (.connector k)
  source_kept : c.get? spec.source = some (.shape source) ∧
    c'.get? spec.source = some (.shape source)
  target_kept : c.get? spec.target = some (.shape target) ∧
    c'.get? spec.target = some (.shape target)
  logged : c'.history = c.history ++ [.addConnector k.id spec.source spec.target]
  spares : Spares c c'

/-- A drawn connector leaves its ends as they are. -/
theorem connects_draw {source target : Shape} (hsource : c.shape? spec.source = some source)
    (htarget : c.shape? spec.target = some target) :
    Connects c (c.draw (c.connectorBetween spec source target)) spec source target
      (c.connectorBetween spec source target) := by
  -- the new id is neither end, and all other shapes are found as before
  have hkept : ∀ id s, id ≠ connectorId spec.source spec.target → c.shape? id = some s →
      c.get? id = some (.shape s) ∧
        (c.draw (c.connectorBetween spec source target)).get? id = some (.shape s) := by
    intro id s hne hs
    refine ⟨get?_of_shape? hs, get?_of_shape? ?_⟩
    rw [shape?_draw, if_neg (show id ≠ (c.connectorBetween spec source target).id from hne), hs]
  refine ⟨rfl, ⟨rfl, rfl⟩, rfl, ?_, hkept _ _ (source_ne_connectorId _ _) hsource,
    hkept _ _ (target_ne_connectorId _ _) htarget, rfl, ⟨rfl, rfl, rfl, rfl⟩⟩
  by_cases hmem : connectorId spec.source spec.target ∈ c.elements.keys
  · obtain ⟨old, hold⟩ := Table.exists_get?_of_mem_keys hmem
    exact Or.inl ⟨old, Table.replaces_insert hold _⟩
  · exact Or.inr (Table.appends_insert hmem _)

/-- Asked for alone, a connector is refused or drawn as it is outside of a list. -/
theorem adjust_addConnector (c : Canvas) (spec : ConnectorSpec) :
    c.adjust [.addConnector spec] = match c.addConnector spec with
      | .ok c' => ⟨c', [], .ok ⟨1, []⟩⟩
      | .error m => ⟨c, [], .error m⟩ := by
  rw [adjust, adjustOne]
  cases c.addConnector spec <;> rfl

/-- A connector is refused if and only if one of its ends is absent or names a connector;
the refusal names both ends, and the canvas is what it was. Otherwise the connector is
drawn, and nothing else happens. -/
theorem addConnector_strict (c : Canvas) (spec : ConnectorSpec) :
    ((∃ m, c.addConnector spec = .error m) ↔ ∃ id ∈ [spec.source, spec.target],
      id ∉ c.elements.keys ∨ ∃ k, c.get? id = some (.connector k)) ∧
      (∀ m, c.addConnector spec = .error m → m = ⟨spec.source, spec.target⟩ ∧
        c.perform (.addConnector spec) = c ∧
        c.adjust [.addConnector spec] = ⟨c, [], .error m⟩) ∧
      ∀ c', c.addConnector spec = .ok c' → c.perform (.addConnector spec) = c' ∧
        c.adjust [.addConnector spec] = ⟨c', [], .ok ⟨1, []⟩⟩ ∧
        ∃ source target k, Connects c c' spec source target k := by
  refine ⟨?_, fun m h => ?_, fun c' h => ?_⟩
  · simp only [addConnector_eq_error_iff, exists_eq_left, shape?_eq_none_iff, List.mem_cons,
      List.not_mem_nil, or_false, exists_eq_or_imp]
  · refine ⟨(addConnector_eq_error_iff.mp h).1, by rw [perform, h], ?_⟩
    rw [adjust_addConnector, h]
  · refine ⟨by rw [perform, h], by rw [adjust_addConnector, h], ?_⟩
    obtain ⟨source, target, hsource, htarget, rfl⟩ := addConnector_eq_ok_iff.mp h
    exact ⟨source, target, _, connects_draw hsource htarget⟩

/-- A connector from a shape to itself that takes the place of a third shape, which is then
no end for another one. -/
theorem addConnector_strict_third_shape :
    let c := (new default default).performAll [.addShape { id := some "A" },
      .addShape { id := some "connector_A_A" }, .addShape { id := some "C" }]
    let spec : ConnectorSpec := { source := "A", target := "A" }
    let refused : ConnectorSpec := { source := "C", target := "connector_A_A" }
    let c' := c.perform (.addConnector spec)
    c.addConnector spec = .ok c' ∧ c'.elements.keys = ["A", "connector_A_A", "C"] ∧
      (∃ source target k, Connects c c' spec source target k) ∧
      c'.addConnector refused = .error ⟨"C", "connector_A_A"⟩ ∧
      c'.perform (.addConnector refused) = c' := by
  intro c spec refused c'
  have hdrawn : c.addConnector spec = .ok c' := rfl
  have hrefused : c'.addConnector refused = .error ⟨"C", "connector_A_A"⟩ := rfl
  exact ⟨hdrawn, rfl, ((addConnector_strict c spec).2.2 c' hdrawn).2.2, hrefused,
    ((addConnector_strict c' refused).2.1 _ hrefused).2.1⟩

end Canvas

end FlowchartSlides
