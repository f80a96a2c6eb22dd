import FlowchartSlides.Proofs.PlainLinks
import FlowchartSlides.Proofs.Rendering

/-!
# Blanks around an arrow

An arrow of marks alone may be drawn longer than its token. Before the arrow any blanks
may stand, or none. Behind it the rule of connections passes over plain spaces only, and
the plain rule, which passes over any blanks, knows the shortest arrow of dashes alone.
Without blanks before it, a longer arrow of dashes loses its first dashes to the id.
-/
namespace FlowchartSlides

/-- An arrow without a text inside: the dotted one, or one of two and more marks. -/
inductive MarkArrow where
  | dotted
  | dashes (extra : Nat)
  | doubles (extra : Nat)

namespace MarkArrow

/-- What stands before the tip. -/
def shaft : MarkArrow → List Char
  | dotted => ['-', '.', '-']
  | dashes extra => List.replicate (extra + 2) '-'
  | doubles extra => List.replicate (extra + 2) '='

def text (arrow : MarkArrow) : List Char := arrow.shaft ++ ['>']

def style : MarkArrow → EdgeStyle
  | dotted => .dotted
  | dashes _ => .solid
  | doubles _ => .thick

/-- The edge that the arrow stands for. -/
def edge (arrow : MarkArrow) (source target : List Char) : Edge :=
  ⟨String.ofList source, String.ofList target, none, arrow.style, true⟩

theorem mem_of_mem_shaft {arrow : MarkArrow} {c : Char} (h : c ∈ arrow.shaft) :
    c ∈ ['-', '=', '.'] := by
  cases arrow with
  | dotted =>
    have hmarks : ['-', '.', '-'] ⊆ ['-', '=', '.'] := by simp
    exact hmarks h
  | dashes extra =>
    rw [List.eq_of_mem_replicate h]
    decide
  | doubles extra =>
    rw [List.eq_of_mem_replicate h]
    decide

end MarkArrow

/-- Two ids with an arrow between them, and what stands on both sides of it. -/
def arrowLine (source lead : List Char) (arrow : MarkArrow) (gap target : List Char) : List Char :=
  source ++ (lead ++ (arrow.text ++ (gap ++ target)))

namespace Flowchart

variable {arrow : MarkArrow} {source lead gap target rest : List Char} {e : LinkEnd}
  {st : Statement}

section Arrow

/-- More than two marks are an arrow that spans all but the outer ones. -/
theorem spanningArrow?_replicate {mark : Char} (hline : mark ≠ '\n') (hmark : mark ≠ '>')
    (extra : Nat) (he : linkEnd? rest = some e) (hrest : '>' ∉ rest) :
    spanningArrow? mark (List.replicate (extra + 3) mark ++ ['>'] ++ rest) =
      some ⟨List.replicate (extra + 3) mark ++ ['>'], e⟩ := by
  have hne : List.replicate (extra + 1) mark ≠ [] := by simp
  have hfeed : '\n' ∉ List.replicate (extra + 1) mark := by simp [hline.symm]
  have hspan := spanningArrow?_append mark hne hfeed he
    (spanTo?_tip hmark (not_cut_of_not_mem hrest))
  have hform : List.replicate (extra + 3) mark =
      mark :: (List.replicate (extra + 1) mark ++ [mark]) := by
    rw [List.replicate_succ, List.replicate_succ']
  rw [hform]
  simpa using hspan

/-- The whole of the arrow is taken, whatever its length. -/
theorem link?_marks (arrow : MarkArrow) (he : linkEnd? rest = some e) (hrest : '>' ∉ rest) :
    link? (arrow.text ++ rest) = some ⟨arrow.text, e⟩ := by
  match arrow with
  | .dotted => exact link?_token .dotted he hrest
  | .dashes 0 => exact link?_token .solid he hrest
  | .dashes 1 =>
    have hdashed : dashedText? ((MarkArrow.dashes 1).text ++ rest) =
        some ⟨(MarkArrow.dashes 1).text, e⟩ := dashedText?_append List.not_mem_nil he
    rw [link?, hdashed]
    rfl
  | .dashes (extra + 2) =>
    have hspan : spanningArrow? '-' ((MarkArrow.dashes (extra + 2)).text ++ rest) = _ :=
      spanningArrow?_replicate (by decide) (by decide) (extra + 1) he hrest
    have hdashed : dashedText? ((MarkArrow.dashes (extra + 2)).text ++ rest) = none := rfl
    have hplain : fixedArrow? ['-', '-', '>'] ((MarkArrow.dashes (extra + 2)).text ++ rest) =
        none := rfl
    have hthick : fixedArrow? ['=', '=', '>'] ((MarkArrow.dashes (extra + 2)).text ++ rest) =
        none := rfl
    rw [link?, hdashed, hplain, hthick, hspan]
    rfl
  | .doubles 0 => exact link?_token .thick he hrest
  | .doubles (extra + 1) =>
    have hspan : spanningArrow? '=' ((MarkArrow.doubles (extra + 1)).text ++ rest) = _ :=
      spanningArrow?_replicate (by decide) (by decide) extra he hrest
    have hdashed : dashedText? ((MarkArrow.doubles (extra + 1)).text ++ rest) = none := rfl
    have hplain : fixedArrow? ['-', '-', '>'] ((MarkArrow.doubles (extra + 1)).text ++ rest) =
        none := rfl
    have hthick : fixedArrow? ['=', '=', '>'] ((MarkArrow.doubles (extra + 1)).text ++ rest) =
        none := rfl
    have hdash : spanningArrow? '-' ((MarkArrow.doubles (extra + 1)).text ++ rest) = none := rfl
    rw [link?, hdashed, hplain, hthick, hdash, hspan]
    rfl

theorem arrowStyle_marks (arrow : MarkArrow) : arrowStyle arrow.text = arrow.style := by
  cases arrow with
  | dotted => rfl
  | dashes extra =>
    -- without a dot neither form of a dotted arrow fits
    have hdot : '.' ∉ (MarkArrow.dashes extra).text := by
      intro hmem
      rcases List.mem_append.mp hmem with hmem | hmem
      · exact absurd (List.eq_of_mem_replicate hmem) (by decide)
      · exact absurd (List.mem_singleton.mp hmem) (by decide)
    have hthick : ['='].isPrefixOf (MarkArrow.dashes extra).text = false := rfl
    have hopening : ['-', '.'].isPrefixOf (MarkArrow.dashes extra).text = false := by
      rw [Bool.eq_false_iff, ne_eq, List.isPrefixOf_iff_prefix]
      exact fun hpre => hdot (hpre.subset (by decide))
    have hclosing : ['.', '-', '>'].isSuffixOf (MarkArrow.dashes extra).text = false := by
      rw [Bool.eq_false_iff, ne_eq, List.isSuffixOf_iff_suffix]
      exact fun hsuf => hdot (hsuf.subset (by decide))
    rw [arrowStyle, hthick, hopening, hclosing]
    rfl
  | doubles extra => rfl

theorem edge_marks (arrow : MarkArrow) (source target : List Char) :
    Link.edge source ⟨arrow.text, ⟨none, target⟩⟩ = arrow.edge source target := by
  have hend : (arrow.text.getLast? == some '>') = true := by simp [MarkArrow.text]
  have hmarks : ∀ c ∈ arrow.text, isArrowTrail c = true := by
    have hall : ∀ c ∈ ['-', '=', '.'], isArrowTrail c = true := List.all_eq_true.mp rfl
    intro c hc
    rcases List.mem_append.mp hc with hc | hc
    · exact hall c (MarkArrow.mem_of_mem_shaft hc)
    · rw [List.mem_singleton.mp hc]
      rfl
  have hlabel : Link.label ⟨arrow.text, ⟨none, target⟩⟩ = none := by
    simp only [Link.label, Option.map_none, Option.getD_none, arrowText_marks hmarks]
  simp only [Link.edge, arrowStyle_marks, hend, hlabel, Option.map_none, MarkArrow.edge]

theorem trimStart_marks (arrow : MarkArrow) (hlead : Text.Blanks lead) (rest : List Char) :
    Text.trimStart (lead ++ (arrow.text ++ rest)) = arrow.text ++ rest := by
  rw [hlead.trimStart_append]
  cases arrow <;> rfl

end Arrow

section Gap

/-- A blank that is not a space keeps the rule of connections from the target. -/
theorem linkEnd?_blanks (hgap : Text.Blanks gap) (hother : ∃ c ∈ gap, c ≠ ' ')
    (rest : List Char) : linkEnd? (gap ++ rest) = none := by
  rw [Option.eq_none_iff_forall_ne_some]
  intro e he
  obtain ⟨c, hc, hother⟩ := hother
  obtain ⟨spaces, after, hcut, -, hspaces, htarget, -⟩ := exists_of_linkEnd? he
  cases hbar : e.barText with
  | some text =>
    obtain ⟨d, gap', rfl⟩ := List.exists_cons_of_ne_nil (List.ne_nil_of_mem hc)
    rw [hbar, barred] at hcut
    obtain ⟨rfl, -⟩ := List.cons.inj hcut
    exact absurd (hgap '|' List.mem_cons_self) (by decide)
  | none =>
    rw [hbar, barred, List.nil_append] at hcut
    rcases List.append_eq_append_iff.mp hcut with ⟨s, rfl, -⟩ | ⟨s, rfl, hs⟩
    · exact hother (hspaces c (List.mem_append_left s hc))
    · obtain ⟨d, w, hword, hd, -⟩ := htarget.exists_cons
      rcases s with _ | ⟨b, s⟩
      · rw [List.append_nil] at hc
        exact hother (hspaces c hc)
      · rw [hword] at hs
        obtain ⟨rfl, -⟩ := List.cons.inj hs
        have hblank := hgap d (by simp)
        rw [not_isBlank_of_isIdChar hd] at hblank
        exact Bool.false_ne_true hblank

/-- What the rule of connections reads stands behind a tip. -/
theorem exists_tip_of_connection? {line : List Char} (h : connection? line = some st) :
    ∃ front rest e, line = front ++ '>' :: rest ∧ linkEnd? rest = some e := by
  obtain ⟨⟨source, l⟩, hfirst, -⟩ := Option.map_eq_some_iff.mp h
  obtain ⟨c, s, -, hsuf, hsourced⟩ := exists_of_firstAtWord? hfirst
  obtain ⟨-, behind, hcut, hlink⟩ := exists_of_sourced? hsourced
  have hstands := standsAt_of_link? hlink
  obtain ⟨rest, hrest, he⟩ := hstands.written
  obtain ⟨shaft, hshaft⟩ := List.getLast?_eq_some_iff.mp hstands.tip
  obtain ⟨front, hfront⟩ : l.arrow ++ rest <:+ line := by
    refine List.IsSuffix.trans ?_ hsuf
    rw [← hrest, hcut]
    exact (List.dropWhile_suffix _).trans (List.suffix_append _ _)
  refine ⟨front ++ shaft, rest, l.ending, ?_, he⟩
  rw [← hfront, hshaft]
  simp

end Gap

section Line

variable (hs : IsWord source) (ht : IsWord target) (hlead : Text.Blanks lead)
  (hgap : Text.Blanks gap)

theorem sourced?_startsOutside {α : Type} {rule : List Char → Option α} (h : StartsOutside rest) :
    sourced? rule rest = none := by
  cases rest with
  | nil => rfl
  | cons c rest => rw [sourced?, if_neg (by simp [h c rfl])]

include hlead in
theorem startsOutside_lead (hne : lead ≠ []) (rest : List Char) : StartsOutside (lead ++ rest) := by
  obtain ⟨c, lead, rfl⟩ := List.exists_cons_of_ne_nil hne
  intro d hd
  obtain rfl : c = d := by simpa using hd
  exact not_isIdChar_of_isBlank (hlead c List.mem_cons_self)

/-- A single dash with a tip is no arrow. -/
theorem link?_short (hrest : '>' ∉ rest) : link? ('-' :: '>' :: rest) = none := by
  have hspan : spanTo? '-' ('>' :: rest) = none := by
    rw [Option.eq_none_iff_forall_ne_some]
    rintro ⟨text, e⟩ h
    obtain ⟨after, hcut, -⟩ := exists_of_spanTo? h
    obtain ⟨d, text, rfl⟩ := List.exists_cons_of_ne_nil (ne_nil_of_spanTo? h)
    exact hrest ((List.cons.inj hcut).2 ▸ by simp)
  have hdash : spanningArrow? '-' ('-' :: '>' :: rest) = none := by
    have hlead : Text.dropLead? ['-'] ('-' :: '>' :: rest) = some ('>' :: rest) :=
      Text.dropLead?_append ['-'] _
    simp only [spanningArrow?, hlead, Option.bind_some, hspan, Option.map_none]
  have hdashed : dashedText? ('-' :: '>' :: rest) = none := rfl
  have hplain : fixedArrow? ['-', '-', '>'] ('-' :: '>' :: rest) = none := rfl
  have hthick : fixedArrow? ['=', '=', '>'] ('-' :: '>' :: rest) = none := rfl
  rw [link?, hdashed, hplain, hthick, hdash]
  rfl

include hlead in
/-- No dash of the arrow is taken for one of the id, unless they touch and the arrow is a
long one. -/
theorem sourced?_marks (hlong : lead = [] → ∀ extra, arrow ≠ .dashes (extra + 1))
    (hrest : '>' ∉ rest) : sourced? link? (lead ++ (arrow.text ++ rest)) = none := by
  by_cases hne : lead = []
  · subst hne
    match arrow with
    | .dotted => rfl
    | .dashes 0 =>
      have hlonger : sourced? link? ('-' :: '>' :: rest) = none := rfl
      have hstart : Text.trimStart ('-' :: '>' :: rest) = '-' :: '>' :: rest := rfl
      rw [MarkArrow.text, List.nil_append]
      simp only [MarkArrow.shaft, List.replicate_succ, List.replicate_zero, List.cons_append,
        List.nil_append]
      rw [sourced?, if_pos isIdChar_dash, hlonger]
      simp only [hstart, link?_short hrest, Option.map_none]
    | .dashes (extra + 1) => exact absurd rfl (hlong rfl extra)
    | .doubles extra => rfl
  · exact sourced?_startsOutside (startsOutside_lead hlead hne _)

/-- Blanks hold what counts as blank alone. -/
theorem not_mem_blanks {c : Char} (hblank : Text.isBlank c = false) (h : Text.Blanks lead) :
    c ∉ lead := by
  intro hmem
  rw [h c hmem] at hblank
  exact Bool.false_ne_true hblank.symm

include hs hlead in
theorem not_mem_upToTip (arrow : MarkArrow) {c : Char} (hid : isIdChar c = false)
    (hblank : Text.isBlank c = false) (hmark : c ∉ ['-', '=', '.']) :
    c ∉ source ++ (lead ++ arrow.shaft) := by
  have hshaft : c ∉ arrow.shaft := fun hmem => hmark (MarkArrow.mem_of_mem_shaft hmem)
  simp [hs.not_mem hid, not_mem_blanks hblank hlead, hshaft]

include ht hgap in
theorem not_mem_behindTip {c : Char} (hid : isIdChar c = false) (hblank : Text.isBlank c = false) :
    c ∉ gap ++ target := by
  simp [ht.not_mem hid, not_mem_blanks hblank hgap]

theorem arrowLine_eq (source lead : List Char) (arrow : MarkArrow) (gap target : List Char) :
    arrowLine source lead arrow gap target =
      (source ++ (lead ++ arrow.shaft)) ++ '>' :: (gap ++ target) := by
  simp [arrowLine, MarkArrow.text]

include hs ht hlead hgap in
/-- The line has one tip, that of its arrow. -/
theorem eq_of_tip {front : List Char}
    (h : arrowLine source lead arrow gap target = front ++ '>' :: rest) :
    front = source ++ (lead ++ arrow.shaft) ∧ rest = gap ++ target := by
  have hfront := not_mem_upToTip hs hlead arrow (c := '>') (by decide) (by decide) (by decide)
  have hbehind := not_mem_behindTip ht hgap (c := '>') (by decide) (by decide)
  rw [arrowLine_eq] at h
  rcases cut_cases hfront h with hcut | ⟨more, -, hmore⟩
  · exact hcut
  · exact absurd (hmore ▸ by simp) hbehind

include hs ht hlead hgap in
theorem definition?_arrowLine : definition? (arrowLine source lead arrow gap target) = none := by
  have hfront := not_mem_upToTip hs hlead arrow (c := '[') (by decide) (by decide) (by decide)
  have hbehind := not_mem_behindTip ht hgap (c := '[') (by decide) (by decide)
  refine definition?_eq_none ?_
  rw [arrowLine_eq, List.mem_append, List.mem_cons]
  rintro (hmem | hmem | hmem)
  · exact hfront hmem
  · exact absurd hmem (by decide)
  · exact hbehind hmem

include hs ht hlead in
/-- With nothing but spaces behind the arrow the rule of connections reads the edge. -/
theorem classify?_spaces (hspaces : ∀ c ∈ gap, c = ' ')
    (hlong : lead = [] → ∀ extra, arrow ≠ .dashes (extra + 1)) :
    classify? (arrowLine source lead arrow gap target) =
      some (.connection, .edge (arrow.edge source target)) := by
  have hblank : Text.Blanks gap := fun c hc => hspaces c hc ▸ Text.isBlank_space
  have hrest := not_mem_behindTip ht hblank (c := '>') (by decide) (by decide)
  have hend : linkEnd? (gap ++ target) = some ⟨none, target⟩ := by
    have hread := linkEnd?_spaces hspaces ht startsOutside_nil
    rwa [List.append_nil] at hread
  have hlink : link? (Text.trimStart (lead ++ (arrow.text ++ (gap ++ target)))) =
      some ⟨arrow.text, ⟨none, target⟩⟩ := by
    rw [trimStart_marks arrow hlead, link?_marks arrow hend hrest]
  have hread := connection?_append hs (sourced?_marks hlead hlong hrest) hlink
  rw [edge_marks] at hread
  exact classify?_of_connection? (definition?_arrowLine hs ht hlead hblank) hread

include hs ht hlead hgap in
/-- With some other blank behind the arrow it reads nothing. -/
theorem connection?_blanks (hother : ∃ c ∈ gap, c ≠ ' ') :
    connection? (arrowLine source lead arrow gap target) = none := by
  rw [Option.eq_none_iff_forall_ne_some]
  intro st hread
  obtain ⟨front, rest, e, hcut, he⟩ := exists_tip_of_connection? hread
  obtain ⟨-, rfl⟩ := eq_of_tip hs ht hlead hgap hcut
  rw [linkEnd?_blanks hgap hother] at he
  exact absurd he (by simp)

include hs ht hlead hgap in
/-- The plain rule reads the shortest arrow of dashes behind and before any blanks. -/
theorem plainConnection?_dashes :
    plainConnection? (arrowLine source lead (.dashes 0) gap target) =
      some (.edge (plainEdge source target)) := by
  have hlonger : sourced? plainLink? (lead ++ ((MarkArrow.dashes 0).text ++ (gap ++ target))) =
      none := by
    by_cases hne : lead = []
    · subst hne
      rfl
    · exact sourced?_startsOutside (startsOutside_lead hlead hne _)
  have hword : word? (Text.trimStart (gap ++ target)) = some target := by
    rw [hgap.trimStart_append, Text.trimStart_eq_self ht.isTrimmed.head, word?_eq_self ht]
  have hplain : plainLink? (Text.trimStart (lead ++ ((MarkArrow.dashes 0).text ++
      (gap ++ target)))) = some target := by
    have htip : Text.dropLead? ['-', '-', '>'] ((MarkArrow.dashes 0).text ++ (gap ++ target)) =
        some (gap ++ target) := Text.dropLead?_append ['-', '-', '>'] _
    rw [trimStart_marks (.dashes 0) hlead, plainLink?, htip, Option.bind_some, hword]
  rw [plainConnection?, arrowLine, firstSourced?_append hs hlonger hplain]
  rfl

include hs ht hlead hgap in
/-- Around the shortest arrow of dashes any blanks will do. -/
theorem reads_dashes :
    (classify? (arrowLine source lead (.dashes 0) gap target)).map (·.2) =
      some (.edge (MarkArrow.edge (.dashes 0) source target)) := by
  by_cases hspaces : ∀ c ∈ gap, c = ' '
  · rw [classify?_spaces hs ht hlead hspaces (by simp)]
    rfl
  · push Not at hspaces
    have hread := classify?_eq_plainConnection_iff.mpr
      ⟨definition?_arrowLine hs ht hlead hgap, connection?_blanks hs ht hlead hgap hspaces,
        plainConnection?_dashes hs ht hlead hgap⟩
    rw [hread]
    rfl

theorem arrowLine_touching (source : List Char) (extra : Nat) (gap target : List Char) :
    arrowLine source [] (.dashes (extra + 1)) gap target =
      arrowLine (source ++ List.replicate (extra + 1) '-') [] (.dashes 0) gap target := by
  have hdashes : List.replicate (extra + 1 + 2) '-' =
      List.replicate (extra + 1) '-' ++ List.replicate 2 '-' := List.replicate_add ..
  simp only [arrowLine, MarkArrow.text, MarkArrow.shaft, hdashes, List.nil_append,
    List.append_assoc]

include hs ht hgap in
/-- Without blanks before it, a longer arrow of dashes is read as the shortest one behind
a longer id. -/
theorem reads_touching (extra : Nat) :
    (classify? (arrowLine source [] (.dashes (extra + 1)) gap target)).map (·.2) =
      some (.edge (MarkArrow.edge (.dashes 0) (source ++ List.replicate (extra + 1) '-')
        target)) := by
  have hword : IsWord (source ++ List.replicate (extra + 1) '-') := by
    refine ⟨List.append_ne_nil_of_left_ne_nil hs.ne_nil _, fun c hc => ?_⟩
    rcases List.mem_append.mp hc with hc | hc
    · exact hs.idChars c hc
    · rw [List.eq_of_mem_replicate hc]
      exact isIdChar_dash
  rw [arrowLine_touching]
  exact reads_dashes hword ht (fun _ hc => absurd hc List.not_mem_nil) hgap

/-- Before a longer arrow of dashes the plain rule finds ids that end in a dash alone. -/
theorem source_ne_of_cut {k : PlainCut} (hk : k.IsPlainLink) (hdash : source.getLast? ≠ some '-')
    {extra : Nat} (hcut : k.before ++ (k.source ++ (k.lead ++ ['-', '-'])) =
      source ++ (lead ++ (MarkArrow.dashes (extra + 1)).shaft)) : source ≠ k.source := by
  rintro rfl
  have hshaft : (MarkArrow.dashes (extra + 1)).shaft =
      List.replicate extra '-' ++ ['-'] ++ ['-', '-'] := by
    rw [MarkArrow.shaft, List.replicate_add, List.replicate_succ']
    rfl
  -- without the last two dashes another one is left, which ends the id
  have hbefore : (k.before ++ (k.source ++ k.lead)) ++ ['-', '-'] =
      ((k.source ++ (lead ++ List.replicate extra '-')) ++ ['-']) ++ ['-', '-'] := by
    rw [hshaft] at hcut
    simpa using hcut
  have hlast := congrArg List.getLast? (List.append_cancel_right hbefore)
  rw [List.getLast?_concat, List.getLast?_append, List.getLast?_append] at hlast
  cases hend : k.lead.getLast? with
  | some c =>
    obtain rfl : c = '-' := by simpa [hend] using hlast
    exact absurd (hk.lead '-' (List.mem_of_getLast? hend)) (by decide)
  | none =>
    rw [hend, Option.none_or, List.getLast?_eq_some_getLast hk.source.ne_nil,
      Option.some_or] at hlast
    rw [List.getLast?_eq_some_getLast hk.source.ne_nil] at hdash
    exact hdash hlast

include hs ht hlead hgap in
/-- With some other blank behind it no arrow but the shortest one of dashes is read. -/
theorem reads_blanks (hdash : source.getLast? ≠ some '-') (hother : ∃ c ∈ gap, c ≠ ' ')
    (hlong : arrow ≠ .dashes 0) :
    (classify? (arrowLine source lead arrow gap target)).map (·.2) ≠
      some (.edge (arrow.edge source target)) := by
  intro hread
  obtain ⟨⟨r, st⟩, hclass, rfl⟩ := Option.map_eq_some_iff.mp hread
  have happly := apply_of_classify? hclass
  cases r with
  | nodeDefinition =>
    rw [Rule.apply, definition?_arrowLine hs ht hlead hgap] at happly
    exact absurd happly (by simp)
  | connection =>
    rw [Rule.apply, connection?_blanks hs ht hlead hgap hother] at happly
    exact absurd happly (by simp)
  | plainConnection =>
    obtain ⟨k, hk, hcut, -, -, hedge⟩ := exists_of_plainConnection? happly
    have hsame := Statement.edge.inj hedge
    have hsource := String.ofList_injective (congrArg Edge.source hsame)
    have hstyle : arrow.style = .solid := congrArg Edge.style hsame
    have htip : arrowLine source lead arrow gap target =
        (k.before ++ (k.source ++ (k.lead ++ ['-', '-']))) ++
          '>' :: (k.gap ++ (k.target ++ k.after)) := by
      rw [hcut, PlainCut.line]
      simp
    obtain ⟨hfront, -⟩ := eq_of_tip hs ht hlead hgap htip
    cases arrow with
    | dotted => exact absurd hstyle (by decide)
    | doubles extra => exact absurd hstyle (by simp [MarkArrow.style])
    | dashes extra =>
      cases extra with
      | zero => exact hlong rfl
      | succ extra => exact source_ne_of_cut hk hdash hfront hsource
  | subgraph =>
    obtain ⟨id, -, hid⟩ := Option.map_eq_some_iff.mp happly
    exact absurd hid (by simp)

/-- Between single spaces every arrow of marks gives its edge. With other blanks around it,
or none, the edge stays the same exactly for the shortest arrow of dashes, and for every
other one when nothing but spaces stands behind it, where a longer arrow of dashes must
not touch the id before it. -/
theorem arrow_spacing_iff (arrow : MarkArrow) (hs : IsWord source)
    (hdash : source.getLast? ≠ some '-') (ht : IsWord target) (hlead : Text.Blanks lead)
    (hgap : Text.Blanks gap) :
    classify? (arrowLine source [' '] arrow [' '] target) =
        some (.connection, .edge (arrow.edge source target)) ∧
      ((classify? (arrowLine source lead arrow gap target)).map (·.2) =
          some (.edge (arrow.edge source target)) ↔
        arrow = .dashes 0 ∨
          (∀ c ∈ gap, c = ' ') ∧ (lead = [] → ∀ extra, arrow ≠ .dashes (extra + 1))) := by
  have hspace : ∀ c ∈ [' '], c = ' ' := fun _ hc => List.mem_singleton.mp hc
  refine ⟨classify?_spaces hs ht Text.blanks_space hspace (by simp), fun hread => ?_, ?_⟩
  · by_contra hneither
    push Not at hneither
    obtain ⟨hshort, hkeeps⟩ := hneither
    by_cases hspaces : ∀ c ∈ gap, c = ' '
    · obtain ⟨rfl, extra, rfl⟩ := hkeeps hspaces
      rw [reads_touching hs ht hgap] at hread
      have hsource := congrArg Edge.source (Statement.edge.inj (Option.some.inj hread))
      exact absurd (String.ofList_injective hsource) (by simp)
    · push Not at hspaces
      exact reads_blanks hs ht hlead hgap hdash hspaces hshort hread
  · rintro (rfl | ⟨hspaces, hlong⟩)
    · exact reads_dashes hs ht hlead hgap
    · rw [classify?_spaces hs ht hlead hspaces hlong]
      rfl

end Line

/-- A thick arrow may touch the id before it, and stand right before a dash. -/
theorem arrow_spacing_thick :
    IsWord ['a'] ∧ ['a'].getLast? ≠ some '-' ∧ IsWord ['-', 'b'] ∧ Text.Blanks [] ∧
      Text.Blanks [' '] ∧
      classify? "a ===> -b".toList =
        some (.connection, .edge ⟨"a", "-b", none, .thick, true⟩) ∧
      (classify? "a===> -b".toList).map (·.2) =
        some (.edge ⟨"a", "-b", none, .thick, true⟩) := by
  have hs : IsWord ['a'] := by decide
  have ht : IsWord ['-', 'b'] := by decide
  have hdash : ['a'].getLast? ≠ some '-' := by decide
  have hlead : Text.Blanks [] := fun _ hc => absurd hc List.not_mem_nil
  obtain ⟨hspaced, hany⟩ := arrow_spacing_iff (.doubles 1) hs hdash ht hlead Text.blanks_space
  have hspaces : ∀ c ∈ [' '], c = ' ' := fun _ hc => List.mem_singleton.mp hc
  exact ⟨hs, hdash, ht, hlead, Text.blanks_space, hspaced,
    hany.mpr (Or.inr ⟨hspaces, by simp⟩)⟩

/-- A tab behind a thick arrow loses the edge, and a long arrow right behind an id gives
the id one of its dashes. -/
theorem arrow_spacing_changes_edge :
    classify? "A ==> B".toList = some (.connection, .edge ⟨"A", "B", none, .thick, true⟩) ∧
      classify? "A ==>\tB".toList = none ∧
      classify? "A ---> B".toList = some (.connection, .edge ⟨"A", "B", none, .solid, true⟩) ∧
      classify? "A--->B".toList = some (.connection, .edge ⟨"A-", "B", none, .solid, true⟩) := by
  decide

end Flowchart

end FlowchartSlides
