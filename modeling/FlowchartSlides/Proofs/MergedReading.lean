import FlowchartSlides.Proofs.Described
import FlowchartSlides.Proofs.Headers

/-!
# Reading a text with merged icons

Merging icons keeps the diagram: the direction, the nodes in their order and the
edges stay, and the labels that definitions give get the icons of their nodes.
Nodes that no statement defines get no icon. The definitions have to stand
within single lines; a definition that runs over a line end is no definition for
the reader, and gets an icon all the same.
-/
namespace FlowchartSlides

open Flowchart

/-- A text in which no group starts a line or runs over a line end. -/
structure Unbroken (cs : List Char) : Prop where
  starts : ∀ l ∈ Text.lines cs, (Text.trimStart l).head? ≠ some '['
  groups : ∀ p a r, cs = p ++ '[' :: (a ++ ']' :: r) → (∀ c ∈ a, isBracket c = false) → '\n' ∉ a

theorem unbroken_groups_iff {cs : List Char} :
    (∀ p a r, cs = p ++ '[' :: (a ++ ']' :: r) → (∀ c ∈ a, isBracket c = false) → '\n' ∉ a) ↔
      ∀ t ∈ cs.tails, ∀ g ∈ group? t, '\n' ∉ g.1 := by
  constructor
  · rintro h t ht ⟨a, r⟩ hg
    obtain ⟨p, hp⟩ := (List.mem_tails t cs).mp ht
    obtain ⟨ha, rfl⟩ := group?_eq_some_iff.mp hg
    exact h p a r hp.symm ha.plain
  · intro h p a r hcs ha
    cases a with
    | nil => simp
    | cons c a =>
      have hg := group?_written ⟨List.cons_ne_nil c a, ha⟩ r
      exact h _ ((List.mem_tails _ cs).mpr ⟨p, hcs.symm⟩) _ hg

instance (cs : List Char) : Decidable (Unbroken cs) :=
  decidable_of_iff
    ((∀ l ∈ Text.lines cs, (Text.trimStart l).head? ≠ some '[') ∧
      ∀ t ∈ cs.tails, ∀ g ∈ group? t, '\n' ∉ g.1)
    ⟨fun h => ⟨h.1, unbroken_groups_iff.mpr h.2⟩,
      fun h => ⟨h.starts, unbroken_groups_iff.mp h.groups⟩⟩

theorem exists_last_lineFeed {b : List Char} (h : '\n' ∈ b) :
    ∃ b₁ b₂, b = b₁ ++ '\n' :: b₂ ∧ '\n' ∉ b₂ := by
  obtain ⟨s, x, heq, hs⟩ := List.eq_append_cons_of_mem (List.mem_reverse.mpr h)
  refine ⟨x.reverse, s.reverse, ?_, by rwa [List.mem_reverse]⟩
  have hrev := congrArg List.reverse heq
  simpa using hrev

/-- Where no group starts a line or runs over a line end, no definition does. -/
theorem Unbroken.oneLine {cs : List Char} (h : Unbroken cs)
    (icon? : List Char → Option (List Char)) : IconMap.OneLine icon? cs := by
  intro p w b a r hcs hdef _
  constructor
  · intro hmem
    obtain ⟨b₁, b₂, rfl, hb₂⟩ := exists_last_lineFeed hmem
    have hform : cs = (p ++ (w ++ b₁)) ++ '\n' :: (b₂ ++ '[' :: (a ++ ']' :: r)) := by
      rw [hcs]
      simp [written]
    obtain ⟨z, hz⟩ := Text.exists_first_line hb₂ (m := '[') (by decide) (by decide) (a ++ ']' :: r)
    have hline : b₂ ++ '[' :: z ∈ Text.lines cs := by
      rw [hform]
      exact (Text.lines_suffix _ _).subset hz
    have hblanks : ∀ c ∈ b₂, Text.isBlank c = true := fun c hc => hdef.blanks c (by simp [hc])
    have hstart := h.starts _ hline
    rw [trimStart_blanks hblanks isBlank_open] at hstart
    exact hstart rfl
  · have hform : cs = (p ++ (w ++ b)) ++ '[' :: (a ++ ']' :: r) := by
      rw [hcs]
      simp [written]
    exact h.groups _ a r hform hdef.content.plain

namespace Flowchart

variable {icons : IconMap}

@[simp] theorem Statement.mentions_withIcons (s : Statement) :
    (s.withIcons icons).mentions = s.mentions := by
  cases s <;> rfl

@[simp] theorem Statement.edge?_withIcons (s : Statement) :
    (s.withIcons icons).edge? = s.edge? := by
  cases s <;> rfl

theorem Statement.labelFor?_withIcons (s : Statement) (id : String) :
    (s.withIcons icons).labelFor? id =
      (s.labelFor? id).map (IconMap.decorate · (icons.icon? id)) := by
  cases s with
  | node i label =>
    by_cases h : i = id
    · simp [withIcons, labelFor?, h]
    · simp [withIcons, labelFor?, h]
  | edge e => rfl
  | subgraph i => rfl

theorem mentioned_withIcons (S : List Statement) :
    mentioned (S.map (Statement.withIcons icons)) = mentioned S := by
  simp [mentioned, List.flatMap_map]

theorem edges_withIcons (S : List Statement) :
    (S.map (Statement.withIcons icons)).filterMap Statement.edge? =
      S.filterMap Statement.edge? := by
  rw [List.filterMap_map]
  congr 1
  funext s
  exact s.edge?_withIcons

/-- The last label of an id gets its icon. -/
theorem lastLabel?_withIcons (S : List Statement) (id : String) :
    lastLabel? (S.map (Statement.withIcons icons)) id =
      (lastLabel? S id).map (IconMap.decorate · (icons.icon? id)) := by
  have hlabels : (Statement.labelFor? id ∘ Statement.withIcons icons) =
      fun s => (s.labelFor? id).map (IconMap.decorate · (icons.icon? id)) := by
    funext s
    exact s.labelFor?_withIcons id
  rw [lastLabel?, List.filterMap_map, hlabels, ← List.map_filterMap, List.getLast?_map, lastLabel?]

/-- An id has a last label exactly when a statement defines it. -/
theorem lastLabel?_eq_none_iff {S : List Statement} {id : String} :
    lastLabel? S id = none ↔ ∀ label, Statement.node id label ∉ S := by
  rw [lastLabel?, List.getLast?_eq_none_iff, List.filterMap_eq_nil_iff]
  constructor
  · intro h label hmem
    have hnone := h _ hmem
    simp [Statement.labelFor?] at hnone
  · intro h s hs
    cases s with
    | node i label =>
      by_cases hi : i = id
      · subst hi
        exact absurd hs (h label)
      · simp [Statement.labelFor?, hi]
    | edge e => rfl
    | subgraph i => rfl

/-- Reading a merged text: the same statements, each definition with its icon. -/
theorem ofText_mergeInto_eq_described {source : String} (hicons : icons.Mergeable)
    (hkey : ∀ icon ∈ icons.present, holdsKeyword icon.toList = false)
    (hone : IconMap.OneLine icons.iconOf? source.toList) :
    ofText (icons.mergeInto source) =
      described (direction? source.toList)
        ((statements source.toList).map (Statement.withIcons icons)) := by
  have hmerge :=
    IconMap.mergeInto_eq_decorateAll hicons.words hicons.plain_iconOf? source
  rw [ofText_eq_described, hmerge, String.toList_ofList,
    IconMap.statements_decorateAll hicons hone, IconMap.direction?_decorateAll hicons hkey hone]

/-- Merging icons into a text keeps direction, nodes and edges; defined nodes get
their icons, the others keep their labels. -/
theorem ofText_mergeInto {source : String} (hsource : Unbroken source.toList)
    (hicons : icons.Mergeable)
    (hkey : ∀ icon ∈ icons.present, holdsKeyword icon.toList = false) :
    (ofText (icons.mergeInto source)).direction = (ofText source).direction ∧
    (ofText (icons.mergeInto source)).nodes.keys = (ofText source).nodes.keys ∧
    (ofText (icons.mergeInto source)).edges = (ofText source).edges ∧
    ∀ id label, (ofText source).labelOf? id = some label →
      ((∃ old, .node id old ∈ statements source.toList) →
        (ofText (icons.mergeInto source)).labelOf? id =
          some (IconMap.decorate label (icons.icon? id))) ∧
      ((∀ old, .node id old ∉ statements source.toList) →
        (ofText (icons.mergeInto source)).labelOf? id = some label) := by
  rw [ofText_mergeInto_eq_described hicons hkey (hsource.oneLine _), ofText_eq_described]
  refine ⟨rfl, ?_, edges_withIcons _, ?_⟩
  · rw [keys_described, keys_described, mentioned_withIcons]
  intro id label hlabel
  rw [labelOf?_described] at hlabel
  rw [labelOf?_described, mentioned_withIcons, lastLabel?_withIcons]
  split at hlabel
  next hmem =>
    obtain rfl := Option.some.inj hlabel
    rw [if_pos hmem]
    cases hlast : lastLabel? (statements source.toList) id with
    | some last =>
      refine ⟨fun _ => rfl, fun hnot => ?_⟩
      rw [lastLabel?_eq_none_iff.mpr hnot] at hlast
      exact absurd hlast (by simp)
    | none =>
      refine ⟨fun ⟨old, hold⟩ => ?_, fun _ => rfl⟩
      exact absurd hold (lastLabel?_eq_none_iff.mp hlast old)
  next => simp at hlabel

/-- A defined node gets its icon inside the quotes; a node of an edge alone keeps
its label. -/
theorem ofText_mergeInto_quoted :
    (ofText (IconMap.mergeInto (.ofList [("A", "🚀"), ("B", " 📊 ")])
        "flowchart TD\nA[\" Start \"]\nA --> B")).labelOf? "A" = some "🚀 Start" ∧
      (ofText (IconMap.mergeInto (.ofList [("A", "🚀"), ("B", " 📊 ")])
        "flowchart TD\nA[\" Start \"]\nA --> B")).labelOf? "B" = some "B" := by
  obtain ⟨-, -, -, hlabels⟩ := @ofText_mergeInto (.ofList [("A", "🚀"), ("B", " 📊 ")])
    "flowchart TD\nA[\" Start \"]\nA --> B" (by decide)
    (by decide) (by decide)
  have hA := (hlabels "A" "Start" (by decide)).1 ⟨"Start", by decide⟩
  have hB := (hlabels "B" "B" (by decide)).2
  refine ⟨?_, hB ?_⟩
  · rw [hA]
    decide
  · intro old hold
    have hstatements : statements "flowchart TD\nA[\" Start \"]\nA --> B".toList =
        [.node "A" "Start", .edge ⟨"A", "B", none, .solid, true⟩] := by decide
    rw [hstatements] at hold
    simp at hold

end Flowchart

end FlowchartSlides
