import FlowchartSlides.Proofs.LinkGrammar
import FlowchartSlides.Proofs.Rendering

/-!
# Texts between bars

An arrow may be followed by a text between bars, the label of its edge. The open-ended
arrows are tried before the bars are looked at. So a text that holds a dash with a tip
and a target behind it can end the arrow in front of it: a plain arrow when that dash is
the first one of the text, a dotted arrow wherever it stands, a thick arrow never. With
any other text the edge keeps its ends and its style.
-/
namespace FlowchartSlides

open Flowchart

namespace Flowchart

variable {rest more : List Char} {e : LinkEnd}

/-- Plain spaces and the start of an id. -/
def TargetAhead (cs : List Char) : Prop :=
  ∃ spaces c after, cs = spaces ++ c :: after ∧ (∀ d ∈ spaces, d = ' ') ∧ isIdChar c = true

/-- A text between bars that an arrow of the given style in front of it ends in. -/
inductive Captures : EdgeStyle → List Char → Prop
  | plain {before after : List Char} (hfirst : '-' ∉ before) (htarget : TargetAhead after) :
    Captures .solid (before ++ '-' :: '>' :: after)
  | dotted {before after : List Char} (htarget : TargetAhead after) :
    Captures .dotted (before ++ '-' :: '>' :: after)

theorem TargetAhead.linkEnd? {cs : List Char} (h : TargetAhead cs) (more : List Char) :
    ∃ w, linkEnd? (cs ++ more) = some ⟨none, w⟩ := by
  obtain ⟨spaces, c, after, rfl, hspaces, hc⟩ := h
  have hword : IsWord (leadingWord (c :: (after ++ more))) := by
    refine ⟨?_, fun d hd => List.mem_takeWhile_imp hd⟩
    rw [leadingWord, List.takeWhile_cons_of_pos hc]
    exact List.cons_ne_nil _ _
  have hread := linkEnd?_spaces hspaces hword (startsOutside_afterWord (c :: (after ++ more)))
  rw [leadingWord_append_afterWord] at hread
  exact ⟨_, by simpa using hread⟩

/-- A target that is found before a bar starts there. -/
theorem targetAhead_of_linkEnd? {cs : List Char} (hcs : '|' ∉ cs) (hmore : '|' ∉ more)
    (h : linkEnd? (cs ++ '|' :: more) = some e) : TargetAhead cs := by
  obtain ⟨spaces, after, hcut, -, hspaces, htarget, -⟩ := exists_of_linkEnd? h
  obtain ⟨c, s, hword, hc, -⟩ := htarget.exists_cons
  have hne : c ≠ '|' := by
    rintro rfl
    exact absurd hc (by decide)
  cases hbar : e.barText with
  | some text =>
    rw [hbar, barred] at hcut
    rcases cs with _ | ⟨d, cs⟩
    · have hback : more = text ++ '|' :: (spaces ++ (e.target ++ after)) := by simpa using hcut
      exact absurd (hback ▸ by simp) hmore
    · exact absurd ((List.cons.inj hcut).1 ▸ List.mem_cons_self) hcs
  | none =>
    rw [hbar, barred, List.nil_append, hword] at hcut
    rcases List.append_eq_append_iff.mp hcut with ⟨b, hb, hback⟩ | ⟨b, hb, hback⟩
    · rcases b with _ | ⟨d, b⟩
      · exact absurd (List.cons.inj hback).1.symm hne
      · have hbar : '|' ∈ spaces := by
          rw [hb, (List.cons.inj hback).1]
          simp
        exact absurd (hspaces '|' hbar) (by decide)
    · rcases b with _ | ⟨d, b⟩
      · exact absurd (List.cons.inj hback).1 hne
      · obtain ⟨rfl, -⟩ := List.cons.inj hback
        exact ⟨spaces, c, b, hb, hspaces, hc⟩

/-- A tip that ends a link before the end of the line is one of the text between bars. -/
theorem exists_of_barred_tip {text before : List Char} (htext : '|' ∉ text) (htip : '>' ∉ more)
    (hmore : '|' ∉ more) (h : '|' :: (text ++ '|' :: more) = before ++ '-' :: '>' :: rest)
    (he : linkEnd? rest = some e) :
    ∃ front after, before = '|' :: front ∧ text = front ++ '-' :: '>' :: after ∧
      rest = after ++ '|' :: more ∧ TargetAhead after := by
  rcases before with _ | ⟨c, front⟩
  · exact absurd (List.cons.inj h).1 (by decide)
  · obtain ⟨rfl, hcut⟩ := List.cons.inj h
    rcases List.append_eq_append_iff.mp hcut with ⟨s, -, hs⟩ | ⟨s, rfl, hs⟩
    · have hmem : '>' ∈ '|' :: more := by rw [hs]; simp
      simp [htip] at hmem
    · rcases s with _ | ⟨c, _ | ⟨d, after⟩⟩
      · exact absurd (List.cons.inj hs).1 (by decide)
      · exact absurd (List.cons.inj (List.cons.inj hs).2).1 (by decide)
      · obtain ⟨rfl, htail⟩ := List.cons.inj hs
        obtain ⟨rfl, rfl⟩ := List.cons.inj htail
        have hafter : '|' ∉ after := fun hmem => htext (by simp [hmem])
        exact ⟨front, after, rfl, rfl, rfl, targetAhead_of_linkEnd? hafter hmore he⟩

section Line

variable {style : EdgeStyle} {text target : List Char}

/-- What does not end the arrow in front is read as the text between the bars. -/
theorem link?_bars (ht : IsWord target) (hbar : '|' ∉ text) (hfree : ¬ Captures style text) :
    link? (style.token ++ '|' :: (text ++ '|' :: ' ' :: target)) =
      some ⟨style.token, ⟨some text, target⟩⟩ := by
  have htip : '>' ∉ ' ' :: target := by simp [ht.not_mem (c := '>') (by decide)]
  have hmore : '|' ∉ ' ' :: target := by simp [ht.not_mem (c := '|') (by decide)]
  refine link?_first style (linkEnd?_bars ht hbar) (fun hsolid => ?_) fun hdotted => ?_
  · rw [Option.eq_none_iff_forall_ne_some]
    intro l hdashed
    obtain ⟨before, rest, hcut, hno, he⟩ := exists_of_dashedText? hdashed
    rcases before with _ | ⟨c, before⟩
    · exact absurd (List.cons.inj hcut).1 (by decide)
    · obtain ⟨front, after, rfl, rfl, -, htarget⟩ :=
        exists_of_barred_tip hbar htip hmore (List.cons.inj hcut).2 he
      rw [hsolid] at hfree
      exact hfree (.plain (fun hmem => hno (by simp [hmem])) htarget)
  · refine spanTo?_tip (by decide) fun before rest hcut => ?_
    rw [Option.eq_none_iff_forall_ne_some]
    intro e he
    obtain ⟨front, after, -, rfl, -, htarget⟩ := exists_of_barred_tip hbar htip hmore hcut he
    rw [hdotted] at hfree
    exact hfree (.dotted htarget)

/-- An arrow that ends in the text between the bars takes the first bar with it, and
finds no other pair of bars. -/
theorem exists_link_of_captures (ht : IsWord target) (hbar : '|' ∉ text) (hline : '\n' ∉ text)
    (h : Captures style text) :
    ∃ l, link? (style.token ++ '|' :: (text ++ '|' :: ' ' :: target)) = some l ∧
      '|' ∈ l.arrow ∧ l.ending.barText = none := by
  have htip : '>' ∉ ' ' :: target := by simp [ht.not_mem (c := '>') (by decide)]
  have hmore : '|' ∉ ' ' :: target := by simp [ht.not_mem (c := '|') (by decide)]
  cases h with
  | @plain before after hfirst htarget =>
    obtain ⟨w, hw⟩ := htarget.linkEnd? ('|' :: ' ' :: target)
    have hdash : '-' ∉ '>' :: '|' :: before := by simp [hfirst]
    have hform : EdgeStyle.solid.token ++
        '|' :: ((before ++ '-' :: '>' :: after) ++ '|' :: ' ' :: target) =
        '-' :: '-' :: (('>' :: '|' :: before) ++
          '-' :: '>' :: (after ++ '|' :: ' ' :: target)) := by
      simp [EdgeStyle.token]
    rw [hform, link?, dashedText?_append hdash hw]
    exact ⟨_, rfl, by simp, rfl⟩
  | @dotted before after htarget =>
    obtain ⟨w, hw⟩ := htarget.linkEnd? ('|' :: ' ' :: target)
    have hform : EdgeStyle.dotted.token ++
        '|' :: ((before ++ '-' :: '>' :: after) ++ '|' :: ' ' :: target) =
        '-' :: (('.' :: '-' :: '>' :: '|' :: before) ++
          '-' :: '>' :: (after ++ '|' :: ' ' :: target)) := by
      simp [EdgeStyle.token]
    have hfront : '\n' ∉ '.' :: '-' :: '>' :: '|' :: before := by
      have hbefore : '\n' ∉ before := fun hmem => hline (by simp [hmem])
      simp [hbefore]
    have hspans : (spanTo? '-' (('.' :: '-' :: '>' :: '|' :: before) ++
        '-' :: '>' :: (after ++ '|' :: ' ' :: target))).isSome :=
      isSome_spanTo? (List.cons_ne_nil _ _) hfront (Option.isSome_of_eq_some hw)
    obtain ⟨⟨found, e⟩, hspan⟩ := Option.isSome_iff_exists.mp hspans
    -- the arrow may end further on, but not behind the second bar
    obtain ⟨further, rfl⟩ := prefix_of_spanTo? (List.cons_ne_nil _ _) hfront
      (Option.isSome_of_eq_some hw) hspan
    obtain ⟨rest, hcut, he⟩ := exists_of_spanTo? hspan
    have hbarred : '|' :: ((before ++ '-' :: '>' :: after) ++ '|' :: ' ' :: target) =
        ('|' :: (before ++ further)) ++ '-' :: '>' :: rest := by simpa using hcut
    obtain ⟨-, behind, -, -, rfl, hbehind⟩ := exists_of_barred_tip hbar htip hmore hbarred he
    obtain ⟨w', hw'⟩ := hbehind.linkEnd? ('|' :: ' ' :: target)
    obtain rfl := Option.some.inj (he.symm.trans hw')
    rw [hform]
    exact ⟨_, (link?_dotted _).trans (spanningArrow?_of_spanTo? hspan), by simp, rfl⟩

end Line

end Flowchart

/-- The label that a text between bars makes; a blank one is none. -/
def barLabel (text : String) : Option String :=
  if Text.trimmed text = "" then none else some (Text.trimmed text)

namespace Flowchart

variable {style : EdgeStyle} {source target text : String}

/-- A character that is neither a mark nor blank stays in the text of an arrow. -/
theorem mem_arrowText {arrow : List Char} {c : Char} (hmem : c ∈ arrow)
    (htrail : isArrowTrail c = false) (hblank : Text.isBlank c = false) : c ∈ arrowText arrow := by
  have hlead : isArrowLead c = false := (Bool.or_eq_false_iff.mp htrail).1
  have hfront := Text.mem_dropWhile hmem hlead
  have hback := Text.mem_dropWhile (List.mem_reverse.mpr hfront) htrail
  exact Text.mem_trim (List.mem_reverse.mpr hback) hblank

theorem label_bars (arrow target : List Char) (text : String) :
    (Link.label ⟨arrow, ⟨some text.toList, target⟩⟩).map String.ofList = barLabel text := by
  rw [barLabel, Text.trimmed, Link.label]
  simp only [Option.map_some, Option.getD_some]
  cases Text.trim text.toList with
  | nil => rfl
  | cons c cs =>
    have hne : String.ofList (c :: cs) ≠ "" := by
      intro hnil
      have hlist := congrArg String.toList hnil
      rw [String.toList_ofList] at hlist
      exact absurd hlist (by simp)
    rw [if_neg hne]
    rfl

theorem edge_bars (style : EdgeStyle) (source target : List Char) (text : String) :
    Link.edge source ⟨style.token, ⟨some text.toList, target⟩⟩ =
      ⟨String.ofList source, String.ofList target, barLabel text, style, true⟩ := by
  have hstyle : arrowStyle style.token = style := by cases style <;> rfl
  have hend : (style.token.getLast? == some '>') = true := by cases style <;> rfl
  simp only [Link.edge, hstyle, hend, label_bars]

/-- An arrow with a bar inside has the bar in its label. -/
theorem label_ne_barLabel {l : Link} (hbar : '|' ∉ text.toList) (hmem : '|' ∈ l.arrow)
    (hnone : l.ending.barText = none) : l.label.map String.ofList ≠ barLabel text := by
  have htext := mem_arrowText hmem (by decide) (by decide)
  have hlabel : l.label = some (arrowText l.arrow) := by
    rw [Link.label, hnone]
    cases harrow : arrowText l.arrow with
    | nil => simp [harrow] at htext
    | cons c cs => simp only [Option.map_none, Option.getD_none]
  rw [hlabel, barLabel]
  intro heq
  split at heq
  next => simp at heq
  next =>
    have hsame : arrowText l.arrow = Text.trim text.toList :=
      String.ofList_injective (Option.some.inj heq)
    exact hbar (Text.mem_of_mem_trim (hsame ▸ htext))

/-- A line without a bracket is the edge of the link that is found behind its source. -/
theorem classify?_edge {label : EdgeLabel} (hs : IsWord source.toList) (ht : IsWord target.toList)
    (hopen : ∀ text ∈ label.text?, '[' ∉ text.toList) {l : Link}
    (hl : link? (label.arrow style ++ ' ' :: target.toList) = some l) :
    classify? (Item.edge source target style label).line =
      some (.connection, .edge (l.edge source.toList)) := by
  have hfree : '[' ∉ (Item.edge source target style label).line := by
    have harrow := EdgeLabel.not_mem_arrow style (by decide) hopen
    simp [Item.line, hs.not_mem (c := '[') (by decide), ht.not_mem (c := '[') (by decide), harrow]
  rw [← EdgeLabel.trimStart_arrow] at hl
  exact classify?_of_connection? (definition?_eq_none hfree) (connection?_append hs rfl hl)

/-- A text between bars keeps the source, the target and the style of the edge, and is
its label, exactly when the arrow in front does not end in it. -/
theorem bars_keep_edge_iff (style : EdgeStyle) (hs : IsWord source.toList)
    (ht : IsWord target.toList) (hbar : '|' ∉ text.toList) (hopen : '[' ∉ text.toList)
    (hline : '\n' ∉ text.toList) :
    classify? (Item.edge source target style .absent).line =
        some (.connection, .edge ⟨source, target, none, style, true⟩) ∧
      (classify? (Item.edge source target style (.bars text)).line =
          some (.connection, .edge ⟨source, target, barLabel text, style, true⟩) ↔
        ¬ Captures style text.toList) := by
  have htip : '>' ∉ ' ' :: target.toList := by simp [ht.not_mem (c := '>') (by decide)]
  have hform : EdgeLabel.arrow style (.bars text) ++ ' ' :: target.toList =
      style.token ++ '|' :: (text.toList ++ '|' :: ' ' :: target.toList) := by
    simp [EdgeLabel.arrow]
  have hread : ∀ {l : Link},
      link? (style.token ++ '|' :: (text.toList ++ '|' :: ' ' :: target.toList)) = some l →
      classify? (Item.edge source target style (.bars text)).line =
        some (.connection, .edge (l.edge source.toList)) := by
    intro l hl
    refine classify?_edge hs ht (fun t hmem => ?_) (hform ▸ hl)
    exact Option.some.inj hmem ▸ hopen
  refine ⟨?_, fun hkeeps hcaptures => ?_, fun hfree => ?_⟩
  · have hplain : link? (EdgeLabel.absent.arrow style ++ ' ' :: target.toList) =
        some ⟨style.token, ⟨none, target.toList⟩⟩ := link?_token style (linkEnd?_space ht) htip
    rw [classify?_edge hs ht (fun _ hmem => by simp [EdgeLabel.text?] at hmem) hplain,
      edge_token style _ none (by simp), String.ofList_toList, String.ofList_toList]
    rfl
  · obtain ⟨l, hl, hmem, hnone⟩ := exists_link_of_captures ht hbar hline hcaptures
    rw [hread hl] at hkeeps
    have hedge := Statement.edge.inj (Prod.mk.inj (Option.some.inj hkeeps)).2
    exact label_ne_barLabel hbar hmem hnone (congrArg Edge.label hedge)
  · rw [hread (link?_bars ht hbar hfree), edge_bars, String.ofList_toList, String.ofList_toList]

/-- A dash with a tip is kept when another dash stands before it. -/
theorem bars_keep_edge_of_dashes :
    IsWord "A-".toList ∧ IsWord "b".toList ∧ '|' ∉ " x- y->z ".toList ∧
      '[' ∉ " x- y->z ".toList ∧ '\n' ∉ " x- y->z ".toList ∧
      classify? "A- --> b".toList = some (.connection, .edge ⟨"A-", "b", none, .solid, true⟩) ∧
      classify? "A- -->| x- y->z | b".toList =
        some (.connection, .edge ⟨"A-", "b", some "x- y->z", .solid, true⟩) ∧
      ¬ Captures .solid " x- y->z ".toList := by
  have hs : IsWord "A-".toList := by decide
  have ht : IsWord "b".toList := by decide
  have hbar : '|' ∉ " x- y->z ".toList := by decide
  obtain ⟨habsent, hbars⟩ := bars_keep_edge_iff .solid hs ht hbar (by decide) (by decide)
  have hread : classify? "A- -->| x- y->z | b".toList =
      some (.connection, .edge ⟨"A-", "b", some "x- y->z", .solid, true⟩) := by decide
  exact ⟨hs, ht, hbar, by decide, by decide, habsent, hread, hbars.mp hread⟩

/-- The arrow ends in the text, which is lost with the target behind the bars. -/
theorem bars_lose_target :
    classify? "A --> B".toList = some (.connection, .edge ⟨"A", "B", none, .solid, true⟩) ∧
      classify? "A -->|x->y| B".toList =
        some (.connection, .edge ⟨"A", "y", some ">|x", .solid, true⟩) ∧
      classify? "A -->|x->y| B".toList ≠
        some (.connection, .edge ⟨"A", "B", some "x->y", .solid, true⟩) := by
  decide

end Flowchart

end FlowchartSlides
