import FlowchartSlides.Proofs.BulkBuild
import FlowchartSlides.Proofs.Ids
import FlowchartSlides.Proofs.LineEnds

/-!
# Flowcharts that are read are well formed

The text may be anything. Whatever rule reads a line, the ids of its statement
are words, its labels are trimmed parts of the line, and its edges are directed;
carrying out such a statement keeps a flowchart well formed. So every connector
that a build makes of a text has an arrow.
-/
namespace FlowchartSlides

namespace Flowchart

/-- The label of a node: a piece of one line without brackets, and without blanks at
its ends. -/
structure IsLabel (label : List Char) : Prop where
  trimmed : Text.IsTrimmed label
  plain : ∀ c ∈ label, isBracket c = false
  oneLine : '\n' ∉ label

/-- The label of an edge: something in one line, without blanks at its ends. -/
structure IsCaption (label : List Char) : Prop where
  ne_nil : label ≠ []
  trimmed : Text.IsTrimmed label
  oneLine : '\n' ∉ label

/-- A directed edge between words. -/
structure IsArrow (e : Edge) : Prop where
  source : IsWord e.source.toList
  target : IsWord e.target.toList
  directed : e.directed = true
  label : ∀ label ∈ e.label, IsCaption label.toList

/-- A statement whose ids are words and whose labels are clean. -/
def Statement.WellFormed : Statement → Prop
  | .node id label => IsWord id.toList ∧ IsLabel label.toList
  | .edge e => IsArrow e
  | .subgraph _ => True

/-- Every node stands under its own id, a word; labels are clean, and the edges are
directed and join nodes. -/
structure WellFormed (f : Flowchart) : Prop extends NodesKeyed f where
  words : ∀ id ∈ f.nodes.keys, IsWord id.toList
  labels : ∀ node ∈ f.nodes.values, IsLabel node.label.toList
  arrows : ∀ e ∈ f.edges, IsArrow e
  joined : ∀ e ∈ f.edges, e.source ∈ f.nodes.keys ∧ e.target ∈ f.nodes.keys

section Labels

variable {cs rest : List Char}

theorem IsWord.isLabel {w : List Char} (h : IsWord w) : IsLabel w where
  trimmed := h.isTrimmed
  plain := fun c hc => not_isBracket_of_isIdChar (h.idChars c hc)
  oneLine := h.not_mem (by decide)

theorem mem_of_mem_inner {a : List Char} {c : Char} (h : c ∈ (Quoting.ofContent a).inner) :
    c ∈ a := by
  rw [← Quoting.ofContent_eq a]
  exact List.mem_append_left _ (List.mem_append_right _ h)

/-- With or without quotes, a content within one line gives a label. -/
theorem IsContent.isLabel {a : List Char} (h : IsContent a) (hline : '\n' ∉ a) :
    IsLabel (Text.trim (Quoting.ofContent a).inner) where
  trimmed := Text.isTrimmed_trim _
  plain := fun c hc => h.plain c (mem_of_mem_inner (Text.mem_of_mem_trim hc))
  oneLine := fun hc => hline (mem_of_mem_inner (Text.mem_of_mem_trim hc))

theorem mem_of_mem_arrowText {arrow : List Char} {c : Char} (h : c ∈ arrowText arrow) :
    c ∈ arrow := by
  have htrail := List.mem_reverse.mp (Text.mem_of_mem_trim h)
  have hlead := List.mem_reverse.mp ((List.dropWhile_sublist _).mem htrail)
  exact (List.dropWhile_sublist _).mem hlead

theorem mem_of_mem_bars? {text : List Char} {c : Char} (h : bars? cs = some (text, rest))
    (hc : c ∈ text) : c ∈ cs := by
  unfold bars? at h
  split at h
  next cs =>
    split at h
    next =>
      obtain ⟨rfl, rfl⟩ := Prod.mk.inj (Option.some.inj h)
      exact List.mem_cons_of_mem _ ((List.takeWhile_sublist _).mem hc)
    next => simp at h
  next => simp at h

theorem mem_of_mem_barText {e : LinkEnd} {text : List Char} {c : Char} (h : linkEnd? cs = some e)
    (htext : e.barText = some text) (hc : c ∈ text) : c ∈ cs := by
  unfold linkEnd? at h
  split at h
  next hbars =>
    obtain ⟨w, -, rfl⟩ := Option.map_eq_some_iff.mp h
    obtain rfl := Option.some.inj htext
    exact mem_of_mem_bars? hbars hc
  next =>
    obtain ⟨w, -, rfl⟩ := Option.map_eq_some_iff.mp h
    simp at htext

/-- Between bars or inside the arrow, the label of a link is a trimmed part of the line. -/
theorem Link.StandsAt.isCaption {l : Link} (h : l.StandsAt cs) (hline : '\n' ∉ cs)
    {label : List Char} (hlabel : l.label = some label) : IsCaption label := by
  obtain ⟨rest, rfl, hend⟩ := h.written
  have hshown : Text.IsTrimmed ((l.ending.barText.map Text.trim).getD (arrowText l.arrow)) ∧
      '\n' ∉ (l.ending.barText.map Text.trim).getD (arrowText l.arrow) := by
    cases hbars : l.ending.barText with
    | none =>
      refine ⟨Text.isTrimmed_trim _, fun hmem => hline ?_⟩
      exact List.mem_append_left _ (mem_of_mem_arrowText hmem)
    | some text =>
      refine ⟨Text.isTrimmed_trim _, fun hmem => hline ?_⟩
      exact List.mem_append_right _ (mem_of_mem_barText hend hbars (Text.mem_of_mem_trim hmem))
  unfold Link.label at hlabel
  split at hlabel
  next => simp at hlabel
  next hne =>
    obtain rfl := Option.some.inj hlabel
    exact ⟨hne, hshown.1, hshown.2⟩

theorem isArrow_edge {l : Link} (h : l.StandsAt cs) (hline : '\n' ∉ cs) {source : List Char}
    (hsource : IsWord source) : IsArrow (l.edge source) := by
  obtain ⟨rest, -, hend⟩ := h.written
  refine ⟨?_, ?_, ?_, ?_⟩
  · rwa [Link.edge, String.toList_ofList]
  · rw [Link.edge, String.toList_ofList]
    exact isWord_of_linkEnd? hend
  · rw [Link.edge, h.tip]
    rfl
  · intro label hlabel
    obtain ⟨text, htext, rfl⟩ := Option.map_eq_some_iff.mp hlabel
    rw [String.toList_ofList]
    exact h.isCaption hline htext

theorem isArrow_plainEdge {source target : List Char} (hsource : IsWord source)
    (htarget : IsWord target) : IsArrow (plainEdge source target) := by
  refine ⟨?_, ?_, rfl, fun label hlabel => absurd hlabel (by simp [plainEdge])⟩
  · rwa [plainEdge, String.toList_ofList]
  · rwa [plainEdge, String.toList_ofList]

end Labels

/-- Each rule makes a well-formed statement of a line. -/
theorem wellFormed_of_apply {line : List Char} (hline : '\n' ∉ line) {r : Rule} {st : Statement}
    (h : r.apply line = some st) : st.WellFormed := by
  have hpart : ∀ {part : List Char}, part <:+ line → '\n' ∉ part :=
    fun hsuf hmem => hline (hsuf.subset hmem)
  cases r with
  | nodeDefinition =>
    obtain ⟨c, s, hc, hsuf, hdef⟩ := exists_of_firstAtWord? h
    obtain ⟨w, b, a, rest, hd, heq, rfl⟩ := exists_of_definitionHere? hc hdef
    have hcontent : '\n' ∉ a := by
      intro hmem
      apply hpart hsuf
      rw [heq]
      simp [written, hmem]
    refine ⟨?_, ?_⟩
    · rw [String.toList_ofList]
      exact hd.word
    · rw [String.toList_ofList]
      exact hd.content.isLabel hcontent
  | connection =>
    obtain ⟨⟨source, l⟩, hl, rfl⟩ := Option.map_eq_some_iff.mp h
    obtain ⟨c, s, -, hsuf, hs⟩ := exists_of_firstAtWord? hl
    obtain ⟨hsource, rest, hcut, hlink⟩ := exists_of_sourced? hs
    have hrest : Text.trimStart rest <:+ c :: s :=
      hcut ▸ (List.dropWhile_suffix _).trans (List.suffix_append _ _)
    exact isArrow_edge (standsAt_of_link? hlink) (hpart (hrest.trans hsuf)) hsource
  | plainConnection =>
    obtain ⟨⟨source, target⟩, hl, rfl⟩ := Option.map_eq_some_iff.mp h
    obtain ⟨c, s, -, -, hs⟩ := exists_of_firstAtWord? hl
    obtain ⟨hsource, rest, -, hlink⟩ := exists_of_sourced? hs
    exact isArrow_plainEdge hsource (isWord_of_plainLink? hlink)
  | subgraph =>
    obtain ⟨id, -, rfl⟩ := Option.map_eq_some_iff.mp h
    trivial

/-- All statements of a text are well formed, since none of its lines holds a line feed. -/
theorem wellFormed_of_mem_statements {cs : List Char} {st : Statement}
    (h : st ∈ statements cs) : st.WellFormed := by
  obtain ⟨line, hmem, hline⟩ := List.mem_filterMap.mp h
  obtain ⟨⟨r, st'⟩, hclass, rfl⟩ := Option.map_eq_some_iff.mp hline
  obtain ⟨raw, hraw, rfl⟩ := List.mem_map.mp (List.mem_filter.mp hmem).1
  exact wellFormed_of_apply
    (fun hfeed => Text.lineFeed_not_mem_of_mem_lines hraw (Text.mem_of_mem_trim hfeed))
    (apply_of_classify? hclass)

theorem Statement.WellFormed.isWord {st : Statement} (h : st.WellFormed) {id : String}
    (hid : id ∈ st.mentions) : IsWord id.toList := by
  cases st with
  | node i label =>
    obtain rfl := List.mem_singleton.mp hid
    exact h.1
  | edge e =>
    simp only [Statement.mentions, List.mem_cons, List.not_mem_nil, or_false] at hid
    rcases hid with rfl | rfl
    · exact h.source
    · exact h.target
  | subgraph i => exact absurd hid List.not_mem_nil

/-- The ids that a text mentions are words. -/
theorem isWord_of_mentioned {cs : List Char} {id : String} (h : id ∈ mentioned (statements cs)) :
    IsWord id.toList := by
  obtain ⟨st, hst, hid⟩ := List.mem_flatMap.mp h
  exact (wellFormed_of_mem_statements hst).isWord hid

variable {f : Flowchart}

theorem wellFormed_start (d : Option Direction) : WellFormed ⟨d, ∅, []⟩ where
  ids := fun _ h => absurd h List.not_mem_nil
  words := fun _ h => absurd h List.not_mem_nil
  labels := fun _ h => absurd h List.not_mem_nil
  arrows := fun _ h => absurd h List.not_mem_nil
  joined := fun _ h => absurd h List.not_mem_nil

theorem mem_keys_mention_iff {id other : String} {label : Option String} :
    other ∈ (f.mention id label).nodes.keys ↔ other ∈ f.nodes.keys ∨ other = id :=
  Table.mem_keys_insert_iff

/-- Mentioning a word keeps a flowchart well formed; without a label of its own the
node shows the label that it has, or else its id. -/
theorem WellFormed.mention (h : f.WellFormed) {id : String} (hid : IsWord id.toList)
    (label : Option String) (hlabel : ∀ l ∈ label, IsLabel l.toList) :
    (f.mention id label).WellFormed where
  toNodesKeyed := h.toNodesKeyed.mention id label
  words := by
    intro other hother
    rcases mem_keys_mention_iff.mp hother with hother | rfl
    · exact h.words other hother
    · exact hid
  labels := by
    have hold : IsLabel ((f.nodes.get? id).getD ⟨id, id⟩).label.toList := by
      cases hget : f.nodes.get? id with
      | none => exact hid.isLabel
      | some node => exact h.labels node (List.mem_map_of_mem (Table.exists_entry_of_lookup hget))
    intro node hnode
    rcases Table.mem_values_insert hnode with rfl | hnode
    · cases label with
      | none => exact hold
      | some l => exact hlabel l rfl
    · exact h.labels node hnode
  arrows := h.arrows
  joined := fun e he => ⟨mem_keys_mention_iff.mpr (Or.inl (h.joined e he).1),
    mem_keys_mention_iff.mpr (Or.inl (h.joined e he).2)⟩

theorem WellFormed.addEdge (h : f.WellFormed) {e : Edge} (he : IsArrow e) :
    (f.addEdge e).WellFormed := by
  have hends := (h.mention he.source none (by simp)).mention he.target none (by simp)
  refine ⟨⟨hends.ids⟩, hends.words, hends.labels, ?_, ?_⟩
  · intro d hd
    rcases List.mem_append.mp hd with hd | hd
    · exact h.arrows d hd
    · obtain rfl := List.mem_singleton.mp hd
      exact he
  · intro d hd
    rcases List.mem_append.mp hd with hd | hd
    · exact hends.joined d hd
    · obtain rfl := List.mem_singleton.mp hd
      exact ⟨mem_keys_mention_iff.mpr (Or.inl (mem_keys_mention_iff.mpr (Or.inr rfl))),
        mem_keys_mention_iff.mpr (Or.inr rfl)⟩

/-- Carrying out a well-formed statement keeps a flowchart well formed. -/
theorem WellFormed.addTo (h : f.WellFormed) {st : Statement} (hst : st.WellFormed) :
    (st.addTo f).WellFormed := by
  cases st with
  | node id label =>
    refine h.mention hst.1 (some label) fun l hl => ?_
    obtain rfl := Option.some.inj hl
    exact hst.2
  | edge e => exact h.addEdge hst
  | subgraph _ => exact h

/-- Reading carries out well-formed statements alone. -/
theorem wellFormed_ofText (text : String) : (ofText text).WellFormed :=
  List.foldlRecOn _ _ (wellFormed_start _) fun _ h _ hst =>
    h.addTo (wellFormed_of_mem_statements hst)

end Flowchart

namespace Canvas

variable {f : Flowchart} {c : Canvas} {icons : IconMap} {k : Connector}

/-- A connector is drawn for an edge and has the arrow of it. -/
theorem head_of_mem_drawnConnectors (hdirected : ∀ e ∈ f.edges, e.directed = true)
    (hk : k ∈ c.drawnConnectors f) : k.head = .arrow := by
  obtain ⟨e, he, rfl⟩ := List.mem_map.mp hk
  rw [Edge.connector, hdirected e ((drawn_sublist _ _).subset he)]
  rfl

/-- The connectors on a canvas after a build were drawn by it, since its nodes are
shapes. -/
theorem mem_drawnConnectors_of_mem_build (h : f.NodesKeyed)
    (hk : .connector k ∈ (c.build f icons).1.elements.values) : k ∈ c.drawnConnectors f := by
  rw [elements_build h] at hk
  rcases Table.mem_values_insertAll hk with hk | hk
  · obtain ⟨s, hs⟩ := exists_shape_of_mem_withNodes h c hk
    exact absurd hs Element.noConfusion
  · simpa using hk

end Canvas

/-- Whatever the text, the flowchart that is read is well formed, and all connectors
that a build on any canvas draws for it have arrows, those that are replaced by
later ones among them. -/
theorem Flowchart.ofText_wellFormed (text : String) :
    (ofText text).WellFormed ∧ ∀ (c : Canvas) (icons : IconMap) (k : Connector),
      k ∈ c.drawnConnectors (ofText text) ∨
        .connector k ∈ (c.build (ofText text) icons).1.elements.values → k.head = .arrow := by
  have h := wellFormed_ofText text
  have hdirected : ∀ e ∈ (ofText text).edges, e.directed = true := fun e he => (h.arrows e he).directed
  refine ⟨h, fun c icons k hk => ?_⟩
  rcases hk with hk | hk
  · exact Canvas.head_of_mem_drawnConnectors hdirected hk
  · exact Canvas.head_of_mem_drawnConnectors hdirected
      (Canvas.mem_drawnConnectors_of_mem_build h.toNodesKeyed hk)

/-- A label in quotes, and one inside an arrow on a line with blanks at its ends. -/
theorem Flowchart.ofText_wellFormed_labelled :
    let f := ofText "flowchart TD\r\nA [\" One\"]\n\tA -- go -->  B\u3000"
    f.edges = [⟨"A", "B", some "go", .solid, true⟩] ∧ f.labelOf? "A" = some "One" ∧ f.WellFormed ∧
      ∃ k ∈ (default : Canvas).drawnConnectors f, k.id = "connector_A_B" ∧ k.head = .arrow := by
  intro f
  have hids : "connector_A_B" ∈ ((default : Canvas).drawnConnectors f).map Connector.id := by decide
  obtain ⟨k, hk, hid⟩ := List.mem_map.mp hids
  obtain ⟨hformed, harrows⟩ := Flowchart.ofText_wellFormed
    "flowchart TD\r\nA [\" One\"]\n\tA -- go -->  B\u3000"
  exact ⟨by decide, by decide, hformed, k, hk, hid, harrows default ∅ k (Or.inl hk)⟩

end FlowchartSlides
