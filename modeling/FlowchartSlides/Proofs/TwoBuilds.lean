import FlowchartSlides.Deck
import FlowchartSlides.Proofs.MergedReading
import FlowchartSlides.Proofs.ShapeTexts
import FlowchartSlides.Proofs.WellFormed

/-!
# Two ways to draw icons

A canvas gives its shapes their icons while it is built; a presentation merges
the icons into the text and builds without any. The merger knows definitions
only, so a node that edges alone mention gets its icon in the first way and not
in the second one. `builds_agree_iff` says that this is all the difference there
is, for texts whose definitions of mapped ids stand within single lines and for
icons without the keyword of headers.
-/
namespace FlowchartSlides

open Flowchart

namespace IconMap

theorem trimmed_trimmed (s : String) : Text.trimmed (Text.trimmed s) = Text.trimmed s := by
  simp [Text.trimmed]

theorem trimmed_eq_self {s : String} (h : Text.IsTrimmed s.toList) : Text.trimmed s = s := by
  rw [Text.trimmed, h.trim_eq, String.ofList_toList]

theorem trimmed_decorate {icons : IconMap} (label id : String) :
    Text.trimmed (decorate label (icons.icon? id)) = decorate label (icons.icon? id) := by
  cases hicon : icons.icon? id with
  | none => exact trimmed_trimmed label
  | some icon =>
    obtain ⟨htrim, hne⟩ := isTrimmed_of_icon? hicon
    have hne' : icon.toList ≠ [] := by simpa using hne
    have hform := trim_icon_label htrim hne' (Text.isTrimmed_trim label.toList)
    simp only [decorate]
    split
    next => exact trimmed_eq_self htrim
    next hlabel =>
      have hcons : Text.trim label.toList ≠ [] := by simpa [Text.trimmed] using hlabel
      rw [if_neg hcons] at hform
      apply String.toList_inj.mp
      rw [Text.trimmed, String.toList_ofList]
      simpa [Text.trimmed] using hform

/-- An icon is seen. -/
theorem decorate_ne {icon : String} (hne : icon ≠ "") (label : String) :
    decorate label (some icon) ≠ Text.trimmed label := by
  intro h
  simp only [decorate] at h
  split at h
  next hempty =>
    rw [String.isEmpty_iff] at hempty
    exact hne (h.trans hempty)
  next =>
    have hlen := congrArg String.length h
    simp only [String.length_append] at hlen
    have hone : " ".length = 1 := rfl
    omega

end IconMap

variable {icons : IconMap}

/-- What the two ways write for a node differs where an icon meets no definition. -/
theorem texts_eq_iff (S : List Statement) (id : String) :
    (∅ : IconMap).labelFor (nodeOf (S.map (Statement.withIcons icons)) id) =
        icons.labelFor (nodeOf S id) ↔
      (icons.icon? id ≠ none → ∃ label, Statement.node id label ∈ S) := by
  have hnone : (∅ : IconMap).icon? id = none := rfl
  simp only [IconMap.labelFor, nodeOf, hnone, IconMap.decorate_none, lastLabel?_withIcons]
  cases hlast : lastLabel? S id with
  | some last =>
    have hdef : ∃ label, Statement.node id label ∈ S := by
      by_contra hnot
      rw [lastLabel?_eq_none_iff.mpr (not_exists.mp hnot)] at hlast
      exact absurd hlast (by simp)
    simp only [Option.map_some, Option.getD_some, IconMap.trimmed_decorate, true_iff]
    exact fun _ => hdef
  | none =>
    have hnot := lastLabel?_eq_none_iff.mp hlast
    simp only [Option.map_none, Option.getD_none]
    cases hicon : icons.icon? id with
    | none => simp [IconMap.decorate_none]
    | some icon =>
      have hne := IconMap.decorate_ne (IconMap.isTrimmed_of_icon? hicon).2 id
      constructor
      · exact fun h => absurd h.symm hne
      · intro h
        obtain ⟨label, hlabel⟩ := h (by simp)
        exact absurd hlabel (hnot label)

/-- The flowchart of a presentation is drawn from the merged text, without icons. -/
theorem flowchart?_ofDraft (draft : FlowchartDraft) (icons : IconMap) (settings : Settings) :
    (Deck.ofDraft draft icons settings).1.flowchart? =
      some ((Canvas.new settings.theme settings.layout).build
        (ofText (icons.mergeInto draft.mermaid)) ∅).1 := by
  have htitle : flowchartTitle.isEmpty = false := by decide
  simp [Deck.ofDraft, Deck.flowchart?, Deck.addSlide, Deck.new, Deck.blankSlide,
    Slide.isFlowchart, htitle]

def iconText (icons : IconMap) (S : List Statement) (id : String) : String :=
  icons.labelFor (nodeOf S id)

def mergedText (icons : IconMap) (S : List Statement) (id : String) : String :=
  (∅ : IconMap).labelFor (nodeOf (S.map (Statement.withIcons icons)) id)

/-- The canvas with icons, and the one of a presentation: one canvas with two ways
to write texts. -/
theorem canvases_eq_retext {source : String} (hicons : icons.Mergeable)
    (hkey : ∀ icon ∈ icons.present, holdsKeyword icon.toList = false)
    (hone : IconMap.OneLine icons.iconOf? source.toList) (summary : String)
    (settings : Settings) :
    (Deck.ofDraft ⟨source, summary⟩ icons settings).1.flowchart? =
        some ((Canvas.ofFlowchart source icons settings).1.retext
          (mergedText icons (statements source.toList))) ∧
      (Canvas.ofFlowchart source icons settings).1 =
        (Canvas.ofFlowchart source icons settings).1.retext
          (iconText icons (statements source.toList)) := by
  have hcanvas : (Canvas.ofFlowchart source icons settings).1 =
      ((Canvas.new settings.theme settings.layout).build
        (described (direction? source.toList) (statements source.toList)) icons).1 := by
    rw [Canvas.ofFlowchart, ofText_eq_described]
  have hid : ∀ (S : List Statement) (id : String), (nodeOf S id).id = id := fun _ _ => rfl
  have hmerged : ∀ id, mergedText icons (statements source.toList) id =
      (∅ : IconMap).labelFor
        (nodeOf ((statements source.toList).map (Statement.withIcons icons)) id) :=
    fun _ => rfl
  have hicon : ∀ id, iconText icons (statements source.toList) id =
      icons.labelFor (nodeOf (statements source.toList) id) := fun _ => rfl
  constructor
  · rw [flowchart?_ofDraft, ofText_mergeInto_eq_described hicons hkey hone, hcanvas]
    simp only [described, mentioned_withIcons, edges_withIcons]
    rw [Canvas.build_retext _ (hid (statements source.toList)) (hid _) hmerged]
  · rw [hcanvas]
    exact Canvas.build_retext _ (hid _) (hid _) hicon

/-- The two ways look alike exactly when every shape whose node has an icon is the
shape of a defined node. -/
theorem views_eq_iff {source : String} (hicons : icons.Mergeable)
    (hkey : ∀ icon ∈ icons.present, holdsKeyword icon.toList = false)
    (hone : IconMap.OneLine icons.iconOf? source.toList) (summary : String)
    (settings : Settings) :
    (Deck.ofDraft ⟨source, summary⟩ icons settings).1.flowchart?.map Canvas.views =
        some (Canvas.ofFlowchart source icons settings).1.views ↔
      ∀ id, ((Canvas.ofFlowchart source icons settings).1.shape? id).isSome →
        icons.icon? id ≠ none → ∃ label, Statement.node id label ∈ statements source.toList := by
  obtain ⟨hdeck, hcanvas⟩ := canvases_eq_retext hicons hkey hone summary settings
  have hkeyed : Keyed (Canvas.ofFlowchart source icons settings).1.elements :=
    Canvas.keyed_build _ _ _
  have hviews := Canvas.views_retext_eq_iff (mergedText icons (statements source.toList))
    (iconText icons (statements source.toList)) hkeyed
  rw [← hcanvas] at hviews
  rw [hdeck, Option.map_some, Option.some_inj, hviews]
  exact forall_congr' fun id => imp_congr_right fun _ => texts_eq_iff _ id

theorem label_nodeOf_withIcons {cs : List Char} {id : String}
    (hid : id ∈ mentioned (statements cs)) :
    (nodeOf ((statements cs).map (Statement.withIcons icons)) id).label =
      mergedText icons (statements cs) id := by
  have hnone : (∅ : IconMap).icon? id = none := rfl
  simp only [mergedText, IconMap.labelFor, nodeOf, hnone, IconMap.decorate_none,
    lastLabel?_withIcons]
  cases lastLabel? (statements cs) id with
  | some last =>
    rw [Option.map_some, Option.getD_some, IconMap.trimmed_decorate]
  | none =>
    have hword := (isWord_of_mentioned hid).isTrimmed
    exact (IconMap.trimmed_eq_self hword).symm

/-- Every label that a merged text gives is the one with the icon exactly when every
node with an icon is defined. -/
theorem labels_eq_iff {source : String} (hicons : icons.Mergeable)
    (hkey : ∀ icon ∈ icons.present, holdsKeyword icon.toList = false)
    (hone : IconMap.OneLine icons.iconOf? source.toList) :
    (∀ id node, (ofText source).nodes.get? id = some node →
        (ofText (icons.mergeInto source)).labelOf? id = some (icons.labelFor node)) ↔
      ∀ id ∈ (ofText source).nodes.keys, icons.icon? id ≠ none →
        ∃ label, Statement.node id label ∈ statements source.toList := by
  have hread : ∀ id ∈ mentioned (statements source.toList),
      (ofText (icons.mergeInto source)).labelOf? id =
        some (mergedText icons (statements source.toList) id) := by
    intro id hid
    rw [ofText_mergeInto_eq_described hicons hkey hone, labelOf?_described, mentioned_withIcons,
      if_pos hid, ← label_nodeOf_withIcons hid]
    rfl
  rw [ofText_eq_described, keys_described]
  simp only [List.mem_eraseDups]
  constructor
  · intro h id hid
    have hlabel := h id _ (get?_described hid)
    rw [hread id hid, Option.some_inj] at hlabel
    exact (texts_eq_iff _ id).mp hlabel
  · intro h id node hnode
    have hid : id ∈ mentioned (statements source.toList) := by
      by_contra hnot
      rw [Table.get?_eq_none (by rw [keys_described, List.mem_eraseDups]; exact hnot)] at hnode
      exact absurd hnode (by simp)
    rw [get?_described hid] at hnode
    obtain rfl := Option.some.inj hnode
    rw [hread id hid, Option.some_inj]
    exact (texts_eq_iff _ id).mpr (h id hid)

/-- Where definitions of mapped ids stand within lines and no icon holds the
keyword, a presentation shows the canvas with icons exactly when every shape with
an icon belongs to a defined node, and reads its labels exactly when every node
with an icon is defined. -/
theorem builds_agree_iff {source : String} (hicons : icons.Mergeable)
    (hkey : ∀ icon ∈ icons.present, holdsKeyword icon.toList = false)
    (hone : IconMap.OneLine icons.iconOf? source.toList) (summary : String)
    (settings : Settings) :
    ((Deck.ofDraft ⟨source, summary⟩ icons settings).1.flowchart?.map Canvas.views =
        some (Canvas.ofFlowchart source icons settings).1.views ↔
      ∀ id, ((Canvas.ofFlowchart source icons settings).1.shape? id).isSome →
        icons.icon? id ≠ none → ∃ label, Statement.node id label ∈ statements source.toList) ∧
    ((∀ id node, (ofText source).nodes.get? id = some node →
        (ofText (icons.mergeInto source)).labelOf? id = some (icons.labelFor node)) ↔
      ∀ id ∈ (ofText source).nodes.keys, icons.icon? id ≠ none →
        ∃ label, Statement.node id label ∈ statements source.toList) :=
  ⟨views_eq_iff hicons hkey hone summary settings, labels_eq_iff hicons hkey hone⟩

/-- A node without icon need not be defined. -/
theorem builds_agree_rocket :
    (Deck.ofDraft ⟨"flowchart LR\nA[Start]\nA --> B", ""⟩ (.ofList [("A", "🚀")])
        .standard).1.flowchart?.map Canvas.views =
      some (Canvas.ofFlowchart "flowchart LR\nA[Start]\nA --> B" (.ofList [("A", "🚀")])
        .standard).1.views := by
  have hunbroken : Unbroken "flowchart LR\nA[Start]\nA --> B".toList := by decide
  refine (@builds_agree_iff (.ofList [("A", "🚀")]) _
    (by decide) (by decide) (hunbroken.oneLine _) ""
    .standard).1.mpr ?_
  intro id _ hicon
  have hid : id = "A" := by
    by_contra hne
    have hkeys : (Table.ofList [("A", "🚀")]).keys = ["A"] := by decide
    refine hicon ?_
    rw [IconMap.icon?, Table.get?_eq_none (by rw [hkeys]; simpa using hne), Option.bind_none]
  exact ⟨"Start", by rw [hid]; decide⟩

/-- A node of an edge alone gets its icon in one of the two ways only. -/
theorem builds_differ_rocket :
    "🚀".toList.all (fun c => !isBracket c && !isQuote c && c != '\n' && c != '\r') = true ∧
      (Deck.ofDraft ⟨"A --> B", ""⟩ (.ofList [("A", "🚀")]) .standard).1.flowchart?.map
          Canvas.views ≠
        some (Canvas.ofFlowchart "A --> B" (.ofList [("A", "🚀")]) .standard).1.views := by
  refine ⟨by decide, ?_⟩
  intro h
  have hunbroken : Unbroken "A --> B".toList := by decide
  obtain ⟨label, hlabel⟩ := (@views_eq_iff (.ofList [("A", "🚀")]) _
    (by decide) (by decide) (hunbroken.oneLine _) ""
    .standard).mp h "A" (by decide) (by decide)
  have hstatements : statements "A --> B".toList = [.edge ⟨"A", "B", none, .solid, true⟩] := by
    decide
  rw [hstatements] at hlabel
  simp at hlabel

end FlowchartSlides
