import FlowchartSlides.Proofs.Ids
import FlowchartSlides.Proofs.Leftmost

/-!
# Arrows written out

Every style has a plain token, and a pair of marks for an arrow with its label
inside. Two kinds of arrows are open-ended: one goes on from two dashes to the next
dash, which must have a tip, the other to the last mark with a tip that a target
follows. Several kinds fit the same text; they are told apart here by the tips behind
the arrow and the dashes before them.
-/
namespace FlowchartSlides.EdgeStyle

def token : EdgeStyle → List Char
  | .solid => ['-', '-', '>']
  | .thick => ['=', '=', '>']
  | .dotted => ['-', '.', '-', '>']

/-- What stands before a label inside an arrow. -/
def opening : EdgeStyle → List Char
  | .solid => ['-', '-']
  | .thick => ['=', '=']
  | .dotted => ['-', '.']

/-- What stands behind a label inside an arrow. -/
def closing : EdgeStyle → List Char
  | .solid => ['-', '-', '>']
  | .thick => ['=', '=', '>']
  | .dotted => ['.', '-', '>']

/-- An arrow with a label inside. -/
def around (style : EdgeStyle) (label : List Char) : List Char :=
  style.opening ++ ' ' :: (label ++ ' ' :: style.closing)

/-- The outer mark of an arrow with a label inside. -/
def outer : EdgeStyle → Char
  | .solid => '-'
  | .thick => '='
  | .dotted => '-'

def inner : EdgeStyle → Char
  | .solid => '-'
  | .thick => '='
  | .dotted => '.'

/-- The inner marks and the label are what a spanning arrow spans. -/
theorem around_append (style : EdgeStyle) (label rest : List Char) :
    style.around label ++ rest = style.outer ::
      ((style.inner :: ' ' :: (label ++ [' ', style.inner])) ++ style.outer :: '>' :: rest) := by
  cases style <;> simp [around, opening, closing, outer, inner]

end FlowchartSlides.EdgeStyle

namespace FlowchartSlides.Flowchart

variable {cs label rest text : List Char} {e : LinkEnd} {l : Link}

/-- A word is read to its end. -/
theorem word?_append {w after : List Char} (hw : IsWord w) (hout : StartsOutside after) :
    word? (w ++ after) = some w := by
  have hlead : leadingWord (w ++ after) = w := by
    rw [leadingWord, List.takeWhile_append_of_pos hw.idChars]
    cases after with
    | nil => simp
    | cons c after => rw [List.takeWhile_cons_of_neg (by simp [hout c rfl]), List.append_nil]
  rw [word?, hlead]
  split
  next => exact absurd rfl hw.ne_nil
  next => rfl

theorem word?_eq_self {w : List Char} (h : IsWord w) : word? w = some w := by
  have hread := word?_append h startsOutside_nil
  rwa [List.append_nil] at hread

theorem dropSpaces_append {spaces : List Char} (h : ∀ c ∈ spaces, c = ' ') (cs : List Char) :
    dropSpaces (spaces ++ cs) = dropSpaces cs :=
  List.dropWhile_append_of_pos fun c hc => beq_iff_eq.mpr (h c hc)

theorem dropSpaces_word {w : List Char} (h : IsWord w) (after : List Char) :
    dropSpaces (w ++ after) = w ++ after := by
  obtain ⟨c, s, rfl, hc, -⟩ := h.exists_cons
  refine List.dropWhile_cons_of_neg ?_
  rw [beq_iff_eq]
  rintro rfl
  exact absurd hc (by decide)

theorem ne_bar_of_head? {spaces w : List Char} (hspaces : ∀ c ∈ spaces, c = ' ') (hw : IsWord w)
    (after : List Char) : ∀ c ∈ (spaces ++ (w ++ after)).head?, c ≠ '|' := by
  intro c hc
  cases spaces with
  | nil =>
    obtain ⟨d, s, rfl, hd, -⟩ := hw.exists_cons
    obtain rfl : d = c := by simpa using hc
    rintro rfl
    exact absurd hd (by decide)
  | cons d spaces =>
    obtain rfl : d = c := by simpa using hc
    rw [hspaces d List.mem_cons_self]
    decide

theorem bars?_eq_none (h : ∀ c ∈ cs.head?, c ≠ '|') : bars? cs = none := by
  unfold bars?
  split
  next => exact absurd rfl (h '|' rfl)
  next => rfl

theorem word?_dropSpaces {spaces w after : List Char} (hspaces : ∀ c ∈ spaces, c = ' ')
    (hw : IsWord w) (hout : StartsOutside after) :
    word? (dropSpaces (spaces ++ (w ++ after))) = some w := by
  rw [dropSpaces_append hspaces, dropSpaces_word hw, word?_append hw hout]

theorem word?_space {w : List Char} (h : IsWord w) : word? (dropSpaces (' ' :: w)) = some w := by
  have hspace : ∀ c ∈ [' '], c = ' ' := fun _ hc => List.mem_singleton.mp hc
  have hread := word?_dropSpaces hspace h startsOutside_nil
  rwa [List.append_nil] at hread

/-- Plain spaces may stand before a target. -/
theorem linkEnd?_spaces {spaces w after : List Char} (hspaces : ∀ c ∈ spaces, c = ' ')
    (hw : IsWord w) (hout : StartsOutside after) :
    linkEnd? (spaces ++ (w ++ after)) = some ⟨none, w⟩ := by
  rw [linkEnd?, bars?_eq_none (ne_bar_of_head? hspaces hw after)]
  simp only [word?_dropSpaces hspaces hw hout, Option.map_some]

theorem linkEnd?_space {w : List Char} (h : IsWord w) : linkEnd? (' ' :: w) = some ⟨none, w⟩ := by
  have hbars : bars? (' ' :: w) = none := rfl
  rw [linkEnd?, hbars]
  simp only [word?_space h, Option.map_some]

theorem bars?_written (h : '|' ∉ label) (rest : List Char) :
    bars? ('|' :: (label ++ '|' :: rest)) = some (label, rest) := by
  have hkeep : ∀ c ∈ label, (c != '|') = true := by
    intro c hc
    rw [bne_iff_ne]
    rintro rfl
    exact h hc
  have hstop : ('|' != '|') = false := rfl
  simp only [bars?, dropWhile_append_stop hkeep hstop, takeWhile_append_stop hkeep hstop]

theorem linkEnd?_bars {w : List Char} (hw : IsWord w) (h : '|' ∉ label) :
    linkEnd? ('|' :: (label ++ '|' :: ' ' :: w)) = some ⟨some label, w⟩ := by
  rw [linkEnd?, bars?_written h]
  simp only [word?_space hw, Option.map_some]

/-- The text reaches up to the last mark with a tip that the end of a link follows. -/
theorem spanTo?_last {mark : Char} (hne : text ≠ []) (hline : '\n' ∉ text)
    (he : linkEnd? rest = some e) (hlast : spanTo? mark (mark :: '>' :: rest) = none) :
    spanTo? mark (text ++ mark :: '>' :: rest) = some (text, e) := by
  induction text with
  | nil => exact absurd rfl hne
  | cons c text ih =>
    rw [List.mem_cons, not_or] at hline
    rw [List.cons_append, spanTo?, if_neg (Ne.symm hline.1)]
    cases text with
    | nil =>
      have hhere : Text.dropLead? [mark, '>'] (mark :: '>' :: rest) = some rest :=
        Text.dropLead?_append [mark, '>'] rest
      rw [List.nil_append, hlast, hhere]
      simp only [Option.bind_some, he, Option.map_some]
    | cons d text =>
      rw [ih (List.cons_ne_nil d text) hline.2]

/-- Behind a mark with a tip nothing is spanned, unless some later tip has the end of a
link behind it. -/
theorem spanTo?_tip {mark : Char} (hmark : mark ≠ '>')
    (h : ∀ text after, rest = text ++ mark :: '>' :: after → linkEnd? after = none) :
    spanTo? mark (mark :: '>' :: rest) = none := by
  rw [Option.eq_none_iff_forall_ne_some]
  rintro ⟨text, e⟩ hspan
  obtain ⟨after, heq, he⟩ := exists_of_spanTo? hspan
  have hne := ne_nil_of_spanTo? hspan
  rcases text with _ | ⟨c, _ | ⟨d, text⟩⟩
  · exact absurd rfl hne
  · exact hmark (List.cons.inj (List.cons.inj heq).2).1.symm
  · have hnone := h text after (List.cons.inj (List.cons.inj heq).2).2
    rw [he] at hnone
    exact absurd hnone (by simp)

theorem not_cut_of_not_mem {mark : Char} (hrest : '>' ∉ rest) :
    ∀ text after, rest = text ++ mark :: '>' :: after → linkEnd? after = none := by
  rintro text after rfl
  simp at hrest

/-- Two dashes in front, and a tip at the next dash. -/
theorem dashedText?_append (htext : '-' ∉ text) (he : linkEnd? rest = some e) :
    dashedText? ('-' :: '-' :: (text ++ '-' :: '>' :: rest)) =
      some ⟨'-' :: '-' :: text ++ ['-', '>'], e⟩ := by
  have hkeep : ∀ c ∈ text, (c != '-') = true := by
    intro c hc
    rw [bne_iff_ne]
    rintro rfl
    exact htext hc
  have hlead : Text.dropLead? ['-', '-'] ('-' :: '-' :: (text ++ '-' :: '>' :: rest)) =
      some (text ++ '-' :: '>' :: rest) := Text.dropLead?_append ['-', '-'] _
  have htip : Text.dropLead? ['-', '>'] ('-' :: '>' :: rest) = some rest :=
    Text.dropLead?_append ['-', '>'] rest
  have hstop : ('-' != '-') = false := rfl
  simp only [dashedText?, hlead, Option.bind_some, takeWhile_append_stop hkeep hstop,
    dropWhile_append_stop hkeep hstop, htip, he, Option.map_some]

/-- The next dash has a tip, and the end of the link behind it. -/
theorem exists_of_dashedText? (h : dashedText? ('-' :: '-' :: cs) = some l) :
    ∃ text rest, cs = text ++ '-' :: '>' :: rest ∧ '-' ∉ text ∧ linkEnd? rest = some l.ending := by
  obtain ⟨cs', hlead, h⟩ := Option.bind_eq_some_iff.mp h
  obtain ⟨rest, hclose, h⟩ := Option.bind_eq_some_iff.mp h
  obtain ⟨e, he, rfl⟩ := Option.map_eq_some_iff.mp h
  obtain rfl : cs = cs' := List.append_cancel_left (Text.eq_append_of_dropLead? hlead)
  refine ⟨cs.takeWhile (· != '-'), rest, ?_, fun hmem => ?_, he⟩
  · have hdrop : cs.dropWhile (· != '-') = '-' :: '>' :: rest := Text.eq_append_of_dropLead? hclose
    rw [← hdrop, List.takeWhile_append_dropWhile]
  · exact absurd (List.mem_takeWhile_imp hmem) (by simp)

/-- Text without `>` between dashes: the first dash behind it is not the last one,
so this kind of arrow does not fit. -/
theorem dashedText?_eq_none (h : '>' ∉ label) (rest : List Char) :
    dashedText? ('-' :: '-' :: (label ++ '-' :: '-' :: '>' :: rest)) = none := by
  rw [Option.eq_none_iff_forall_ne_some]
  intro l hl
  obtain ⟨text, after, hcut, hno, -⟩ := exists_of_dashedText? hl
  -- the first dash is the outer one of the two behind the label, or one of the label
  rcases cut_cases hno hcut.symm with ⟨-, hbehind⟩ | ⟨s, rfl, hbehind⟩
  · exact absurd (List.cons.inj hbehind).1 (by decide)
  · rcases s with _ | ⟨c, s⟩
    · exact absurd (List.cons.inj hbehind).1 (by decide)
    · exact h ((List.cons.inj hbehind).1 ▸ by simp)

theorem dashedText?_token (h : '>' ∉ rest) : dashedText? ('-' :: '-' :: '>' :: rest) = none := by
  rw [Option.eq_none_iff_forall_ne_some]
  intro l hl
  obtain ⟨text, after, hcut, -, -⟩ := exists_of_dashedText? hl
  rcases text with _ | ⟨c, text⟩
  · exact absurd (List.cons.inj hcut).1 (by decide)
  · exact h ((List.cons.inj hcut).2 ▸ by simp)

theorem fixedArrow?_append {arrow : List Char} (he : linkEnd? rest = some e) :
    fixedArrow? arrow (arrow ++ rest) = some ⟨arrow, e⟩ := by
  rw [fixedArrow?, Text.dropLead?_append, Option.bind_some, he]
  rfl

theorem spanningArrow?_of_spanTo? {mark : Char} (h : spanTo? mark cs = some (text, e)) :
    spanningArrow? mark (mark :: cs) = some ⟨mark :: text ++ [mark, '>'], e⟩ := by
  have hlead : Text.dropLead? [mark] (mark :: cs) = some cs := Text.dropLead?_append [mark] cs
  simp only [spanningArrow?, hlead, Option.bind_some, h, Option.map_some]

theorem spanningArrow?_append (mark : Char) (hne : text ≠ []) (hline : '\n' ∉ text)
    (he : linkEnd? rest = some e) (hlast : spanTo? mark (mark :: '>' :: rest) = none) :
    spanningArrow? mark (mark :: (text ++ mark :: '>' :: rest)) =
      some ⟨mark :: text ++ [mark, '>'], e⟩ :=
  spanningArrow?_of_spanTo? (spanTo?_last hne hline he hlast)

/-- Behind a dash and a dot only the arrows that span from dash to dash are left. -/
theorem link?_dotted (rest : List Char) :
    link? ('-' :: '.' :: rest) = spanningArrow? '-' ('-' :: '.' :: rest) := by
  have hdashed : dashedText? ('-' :: '.' :: rest) = none := rfl
  have hplain : fixedArrow? ['-', '-', '>'] ('-' :: '.' :: rest) = none := rfl
  have hthick : fixedArrow? ['=', '=', '>'] ('-' :: '.' :: rest) = none := rfl
  have hdoubles : spanningArrow? '=' ('-' :: '.' :: rest) = none := rfl
  rw [link?, hdashed, hplain, hthick, hdoubles]
  cases spanningArrow? '-' ('-' :: '.' :: rest) <;> rfl

/-- A plain token is the arrow, when dashes do not reach a tip further on. -/
theorem link?_first (style : EdgeStyle) (he : linkEnd? rest = some e)
    (hdashed : style = .solid → dashedText? ('-' :: '-' :: '>' :: rest) = none)
    (hspan : style = .dotted → spanTo? '-' ('-' :: '>' :: rest) = none) :
    link? (style.token ++ rest) = some ⟨style.token, e⟩ := by
  cases style with
  | solid =>
    have hnone : dashedText? (['-', '-', '>'] ++ rest) = none := hdashed rfl
    have hfixed : fixedArrow? ['-', '-', '>'] (['-', '-', '>'] ++ rest) =
        some ⟨['-', '-', '>'], e⟩ := fixedArrow?_append he
    rw [link?, EdgeStyle.token, hnone, hfixed]
    rfl
  | thick =>
    have hnone : dashedText? (['=', '=', '>'] ++ rest) = none := rfl
    have hplain : fixedArrow? ['-', '-', '>'] (['=', '=', '>'] ++ rest) = none := rfl
    have hfixed : fixedArrow? ['=', '=', '>'] (['=', '=', '>'] ++ rest) =
        some ⟨['=', '=', '>'], e⟩ := fixedArrow?_append he
    rw [link?, EdgeStyle.token, hnone, hplain, hfixed]
    rfl
  | dotted =>
    have hform : EdgeStyle.dotted.token ++ rest = '-' :: '.' :: '-' :: '>' :: rest := rfl
    rw [hform, link?_dotted]
    exact spanningArrow?_append '-' (List.cons_ne_nil '.' []) (by decide) he (hspan rfl)

theorem link?_token (style : EdgeStyle) (he : linkEnd? rest = some e) (hrest : '>' ∉ rest) :
    link? (style.token ++ rest) = some ⟨style.token, e⟩ :=
  link?_first style he (fun _ => dashedText?_token hrest)
    fun _ => spanTo?_tip (by decide) (not_cut_of_not_mem hrest)

theorem spanningArrow?_around (style : EdgeStyle) (hline : '\n' ∉ label)
    (he : linkEnd? rest = some e) (hrest : '>' ∉ rest) :
    spanningArrow? style.outer (style.around label ++ rest) = some ⟨style.around label, e⟩ := by
  have houter : style.outer ≠ '>' := by cases style <;> decide
  have hinner : style.inner ≠ '\n' := by cases style <;> decide
  have hspan := spanningArrow?_append style.outer
    (List.cons_ne_nil style.inner (' ' :: (label ++ [' ', style.inner])))
    (by simp [hline, Ne.symm hinner]) he
    (spanTo?_tip houter (not_cut_of_not_mem hrest))
  have hwhole := style.around_append label []
  rw [List.append_nil] at hwhole
  rw [style.around_append, hspan, hwhole]
  rfl

theorem link?_around (style : EdgeStyle) (hlabel : '>' ∉ label) (hline : '\n' ∉ label)
    (he : linkEnd? rest = some e) (hrest : '>' ∉ rest) :
    link? (style.around label ++ rest) = some ⟨style.around label, e⟩ := by
  have hspan := spanningArrow?_around style hline he hrest
  cases style with
  | solid =>
    have hspaced : '>' ∉ ' ' :: (label ++ [' ']) := by simp [hlabel]
    have hform : EdgeStyle.solid.around label ++ rest =
        '-' :: '-' :: ((' ' :: (label ++ [' '])) ++ '-' :: '-' :: '>' :: rest) := by
      simp [EdgeStyle.around, EdgeStyle.opening, EdgeStyle.closing]
    have hdashed : dashedText? (EdgeStyle.solid.around label ++ rest) = none := by
      rw [hform, dashedText?_eq_none hspaced rest]
    have hplain : fixedArrow? ['-', '-', '>'] (EdgeStyle.solid.around label ++ rest) = none := rfl
    have hthick : fixedArrow? ['=', '=', '>'] (EdgeStyle.solid.around label ++ rest) = none := rfl
    have hdash : spanningArrow? '-' (EdgeStyle.solid.around label ++ rest) = _ := hspan
    rw [link?, hdashed, hplain, hthick, hdash]
    rfl
  | thick =>
    have hdashed : dashedText? (EdgeStyle.thick.around label ++ rest) = none := rfl
    have hplain : fixedArrow? ['-', '-', '>'] (EdgeStyle.thick.around label ++ rest) = none := rfl
    have hthick : fixedArrow? ['=', '=', '>'] (EdgeStyle.thick.around label ++ rest) = none := rfl
    have hdash : spanningArrow? '-' (EdgeStyle.thick.around label ++ rest) = none := rfl
    rw [link?, hdashed, hplain, hthick, hdash]
    exact hspan
  | dotted => exact (link?_dotted _).trans hspan

theorem getLast?_around (style : EdgeStyle) (label : List Char) :
    (style.around label).getLast? = some '>' := by
  cases style <;> simp [EdgeStyle.around, EdgeStyle.closing, List.getLast?_cons]

/-- An arrow of marks alone has no text. -/
theorem arrowText_marks {arrow : List Char} (h : ∀ c ∈ arrow, isArrowTrail c = true) :
    arrowText arrow = [] := by
  have hback : (arrow.dropWhile isArrowLead).reverse.dropWhile isArrowTrail = [] := by
    rw [List.dropWhile_eq_nil_iff]
    intro c hc
    exact h c ((List.dropWhile_sublist _).mem (List.mem_reverse.mp hc))
  rw [arrowText, hback]
  rfl

/-- Marks at the two ends of an arrow are no part of its text. -/
theorem arrowText_between {lead text trail : List Char} (hlead : ∀ c ∈ lead, isArrowLead c = true)
    (hne : text ≠ []) (hfirst : ∀ c ∈ text.head?, isArrowLead c = false)
    (hlast : ∀ c ∈ text.getLast?, isArrowTrail c = false)
    (htrail : ∀ c ∈ trail, isArrowTrail c = true) :
    arrowText (lead ++ (text ++ trail)) = Text.trim text := by
  have hfront : (lead ++ (text ++ trail)).dropWhile isArrowLead = text ++ trail := by
    obtain ⟨c, rest, rfl⟩ := List.exists_cons_of_ne_nil hne
    exact dropWhile_append_stop hlead (hfirst c rfl) _
  have hback : (text ++ trail).reverse.dropWhile isArrowTrail = text.reverse := by
    obtain ⟨init, c, rfl⟩ := List.eq_nil_or_concat text |>.resolve_left hne
    have hrev : ∀ d ∈ trail.reverse, isArrowTrail d = true :=
      fun d hd => htrail d (List.mem_reverse.mp hd)
    rw [List.concat_eq_append] at hlast ⊢
    rw [List.reverse_append, List.reverse_concat]
    exact dropWhile_append_stop hrev (hlast c (by simp)) _
  rw [arrowText, hfront, hback, List.reverse_reverse]

/-- Between its marks, an arrow with a label inside has the label between spaces. -/
theorem arrowText_around (style : EdgeStyle) (h : Text.IsTrimmed label) :
    arrowText (style.around label) = label := by
  have hopening : ∀ c ∈ style.opening, isArrowLead c = true := by
    intro c hc
    cases style <;> simp only [EdgeStyle.opening, List.mem_cons, List.not_mem_nil, or_false] at hc
      <;> rcases hc with rfl | rfl <;> rfl
  have hclosing : ∀ c ∈ style.closing, isArrowTrail c = true := by
    intro c hc
    cases style <;> simp only [EdgeStyle.closing, List.mem_cons, List.not_mem_nil, or_false] at hc
      <;> rcases hc with rfl | rfl | rfl <;> rfl
  have hform : style.around label =
      style.opening ++ (' ' :: (label ++ [' ']) ++ style.closing) := by
    simp [EdgeStyle.around]
  have hfirst : ∀ c ∈ (' ' :: (label ++ [' '])).head?, isArrowLead c = false := by
    intro c hc
    obtain rfl : ' ' = c := by simpa using hc
    rfl
  have hlast : ∀ c ∈ (' ' :: (label ++ [' '])).getLast?, isArrowTrail c = false := by
    intro c hc
    rw [← List.cons_append, List.getLast?_concat] at hc
    obtain rfl := Option.some.inj hc
    rfl
  rw [hform, arrowText_between hopening (List.cons_ne_nil _ _) hfirst hlast hclosing]
  exact h.trim_pad Text.blanks_space Text.blanks_space

theorem arrowStyle_around (style : EdgeStyle) (label : List Char) :
    arrowStyle (style.around label) = style := by
  cases style with
  | solid =>
    have hend : ['.', '-', '>'].isSuffixOf (EdgeStyle.solid.around label) = false := by
      rw [Bool.eq_false_iff, ne_eq, List.isSuffixOf_iff_suffix]
      intro hsuf
      -- two ends of the same length are one
      have htail : ['-', '-', '>'] <:+ EdgeStyle.solid.around label :=
        ⟨'-' :: '-' :: ' ' :: (label ++ [' ']),
          by simp [EdgeStyle.around, EdgeStyle.opening, EdgeStyle.closing]⟩
      have hwithin := List.suffix_of_suffix_length_le hsuf htail (by simp)
      have heq := hwithin.eq_of_length rfl
      exact absurd heq (by decide)
    rw [arrowStyle, hend]
    rfl
  | thick => rfl
  | dotted => rfl

theorem edge_token (style : EdgeStyle) (source : List Char) (bar : Option (List Char))
    (hbar : ∀ text ∈ bar, Text.IsTrimmed text ∧ text ≠ []) (target : List Char) :
    Link.edge source ⟨style.token, ⟨bar, target⟩⟩ =
      ⟨String.ofList source, String.ofList target, bar.map String.ofList, style, true⟩ := by
  have hstyle : arrowStyle style.token = style := by cases style <;> rfl
  have hend : (style.token.getLast? == some '>') = true := by cases style <;> rfl
  have hlabel : Link.label ⟨style.token, ⟨bar, target⟩⟩ = bar := by
    cases bar with
    | none => cases style <;> rfl
    | some text =>
      obtain ⟨htrim, hne⟩ := hbar text rfl
      simp only [Link.label, Option.map_some, Option.getD_some, htrim.trim_eq]
  simp only [Link.edge, hstyle, hend, hlabel]

theorem edge_around (style : EdgeStyle) (source : List Char) (htrim : Text.IsTrimmed label)
    (hne : label ≠ []) (target : List Char) :
    Link.edge source ⟨style.around label, ⟨none, target⟩⟩ =
      ⟨String.ofList source, String.ofList target, some (String.ofList label), style, true⟩ := by
  have hend : ((style.around label).getLast? == some '>') = true := by
    rw [getLast?_around]
    rfl
  have hlabel : Link.label ⟨style.around label, ⟨none, target⟩⟩ = some label := by
    simp only [Link.label, Option.map_none, Option.getD_none, arrowText_around style htrim]
  simp only [Link.edge, arrowStyle_around, hend, hlabel, Option.map_some]

end FlowchartSlides.Flowchart
