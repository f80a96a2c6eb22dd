import FlowchartSlides.Proofs.Arrows
import Mathlib.Data.List.DropRight

/-!
# The grammar of links

A link is an id, blanks, an arrow, perhaps a text between bars, plain spaces and an
id. The kinds of arrows overlap, and an id may end in the dashes that an arrow starts
with. Within one line the rule of connections fits exactly where such pieces can be
found, however they are cut, and what it reads is one way to cut the line, with the
whole of its words and as far to the left as possible.
-/
namespace FlowchartSlides.Flowchart

/-- An arrow as it may be written: a fixed one, or anything between a mark and the same
mark with a tip. -/
inductive ArrowForm : List Char → Prop
  | plain : ArrowForm ['-', '-', '>']
  | thick : ArrowForm ['=', '=', '>']
  | dashes {text : List Char} (h : text ≠ []) : ArrowForm ('-' :: (text ++ ['-', '>']))
  | doubles {text : List Char} (h : text ≠ []) : ArrowForm ('=' :: (text ++ ['=', '>']))

/-- A text between bars, or nothing. -/
def barred : Option (List Char) → List Char
  | none => []
  | some text => '|' :: (text ++ ['|'])

/-- A line cut into a link and what stands around it. -/
structure LinkCut where
  before : List Char
  source : List Char
  blanks : List Char
  arrow : List Char
  barText : Option (List Char)
  spaces : List Char
  target : List Char
  after : List Char

namespace LinkCut

/-- What stands behind the arrow. -/
def ending (k : LinkCut) : List Char :=
  barred k.barText ++ (k.spaces ++ (k.target ++ k.after))

def line (k : LinkCut) : List Char :=
  k.before ++ (k.source ++ (k.blanks ++ (k.arrow ++ k.ending)))

/-- The pieces are those of a link. -/
structure IsLink (k : LinkCut) : Prop where
  source : IsWord k.source
  blanks : Text.Blanks k.blanks
  arrow : ArrowForm k.arrow
  barText : ∀ text ∈ k.barText, '|' ∉ text
  spaces : ∀ c ∈ k.spaces, c = ' '
  target : IsWord k.target

/-- The text inside an arrow, without the marks at its two ends. -/
def innerText (k : LinkCut) : List Char :=
  Text.trim ((k.arrow.dropWhile (· ∈ ['-', '=', '.'])).rdropWhile (· ∈ ['-', '=', '.', '>']))

/-- The text between bars, or the one inside the arrow; a blank one is no label. -/
def label (k : LinkCut) : Option (List Char) :=
  let text := match k.barText with
    | some text => Text.trim text
    | none => k.innerText
  if text = [] then none else some text

def style (k : LinkCut) : EdgeStyle :=
  if ['='] <+: k.arrow then .thick
  else if ['-', '.'] <+: k.arrow ∨ ['.', '-', '>'] <:+ k.arrow then .dotted
  else .solid

/-- The edge that a link stands for. -/
def edge (k : LinkCut) : Edge :=
  ⟨String.ofList k.source, String.ofList k.target, k.label.map String.ofList, k.style, true⟩

end LinkCut

variable {cs rest : List Char}

section Ending

theorem isSome_word? {w after : List Char} (h : IsWord w) : (word? (w ++ after)).isSome := by
  obtain ⟨c, s, rfl, hc, -⟩ := h.exists_cons
  rw [word?, leadingWord, List.cons_append, List.takeWhile_cons_of_pos hc]
  rfl

theorem exists_of_word? {w : List Char} (h : word? cs = some w) :
    IsWord w ∧ ∃ after, cs = w ++ after ∧ StartsOutside after := by
  refine ⟨isWord_of_word? h, afterWord cs, ?_, startsOutside_afterWord cs⟩
  rw [word?] at h
  split at h
  next => simp at h
  next => rw [← Option.some.inj h, leadingWord_append_afterWord]

theorem eq_of_bars? {text : List Char} (h : bars? cs = some (text, rest)) :
    cs = '|' :: (text ++ '|' :: rest) ∧ '|' ∉ text := by
  unfold bars? at h
  split at h
  next cs =>
    split at h
    next rest' hrest =>
      obtain ⟨rfl, rfl⟩ := Prod.mk.inj (Option.some.inj h)
      refine ⟨?_, fun hmem => ?_⟩
      · rw [← hrest, List.takeWhile_append_dropWhile]
      · exact absurd (List.mem_takeWhile_imp hmem) (by simp)
    next => simp at h
  next => simp at h

/-- Behind an arrow a target is found, with or without bars before it. -/
theorem LinkCut.IsLink.isSome_linkEnd? {k : LinkCut} (h : k.IsLink) :
    (linkEnd? k.ending).isSome := by
  have htarget : (word? (dropSpaces (k.spaces ++ (k.target ++ k.after)))).isSome := by
    rw [dropSpaces_append h.spaces, dropSpaces_word h.target]
    exact isSome_word? h.target
  rw [LinkCut.ending, linkEnd?]
  cases hbar : k.barText with
  | none =>
    have hnone : bars? (k.spaces ++ (k.target ++ k.after)) = none :=
      bars?_eq_none (ne_bar_of_head? h.spaces h.target k.after)
    rw [barred, List.nil_append, hnone]
    simpa using htarget
  | some text =>
    have hform : barred (some text) ++ (k.spaces ++ (k.target ++ k.after)) =
        '|' :: (text ++ '|' :: (k.spaces ++ (k.target ++ k.after))) := by simp [barred]
    rw [hform, bars?_written (h.barText text hbar)]
    simpa using htarget

theorem exists_of_word?_dropSpaces {w : List Char} (h : word? (dropSpaces cs) = some w) :
    ∃ spaces after, cs = spaces ++ (w ++ after) ∧ (∀ c ∈ spaces, c = ' ') ∧ IsWord w ∧
      StartsOutside after := by
  obtain ⟨hword, after, hafter, hout⟩ := exists_of_word? h
  refine ⟨cs.takeWhile (· == ' '), after, ?_, fun c hc => ?_, hword, hout⟩
  · rw [← hafter, dropSpaces, List.takeWhile_append_dropWhile]
  · have hspace := List.mem_takeWhile_imp hc
    exact beq_iff_eq.mp hspace

/-- What is found behind an arrow is written there. -/
theorem exists_of_linkEnd? {e : LinkEnd} (h : linkEnd? cs = some e) :
    ∃ spaces after, cs = barred e.barText ++ (spaces ++ (e.target ++ after)) ∧
      (∀ text ∈ e.barText, '|' ∉ text) ∧ (∀ c ∈ spaces, c = ' ') ∧ IsWord e.target ∧
      StartsOutside after := by
  unfold linkEnd? at h
  split at h
  next text rest hbars =>
    obtain ⟨w, hw, rfl⟩ := Option.map_eq_some_iff.mp h
    obtain ⟨rfl, hbar⟩ := eq_of_bars? hbars
    obtain ⟨spaces, after, rfl, hspaces, hword, hout⟩ := exists_of_word?_dropSpaces hw
    refine ⟨spaces, after, by simp [barred], ?_, hspaces, hword, hout⟩
    intro t ht
    exact Option.some.inj ht ▸ hbar
  next =>
    obtain ⟨w, hw, rfl⟩ := Option.map_eq_some_iff.mp h
    obtain ⟨spaces, after, rfl, hspaces, hword, hout⟩ := exists_of_word?_dropSpaces hw
    exact ⟨spaces, after, rfl, fun _ ht => absurd ht (by simp), hspaces, hword, hout⟩

end Ending

section Arrow

/-- A text that reaches up to a mark with a tip is spanned. -/
theorem isSome_spanTo? {mark : Char} {text : List Char} (hne : text ≠ []) (hline : '\n' ∉ text)
    (hend : (linkEnd? rest).isSome) : (spanTo? mark (text ++ mark :: '>' :: rest)).isSome := by
  induction text with
  | nil => exact absurd rfl hne
  | cons c text ih =>
    rw [List.mem_cons, not_or] at hline
    rw [List.cons_append, spanTo?, if_neg (Ne.symm hline.1)]
    cases hspan : spanTo? mark (text ++ mark :: '>' :: rest) with
    | some found => rfl
    | none =>
      cases text with
      | nil =>
        have hlead : Text.dropLead? [mark, '>'] (mark :: '>' :: rest) = some rest :=
          Text.dropLead?_append [mark, '>'] rest
        simp only [List.nil_append, hlead, Option.bind_some, Option.isSome_map]
        exact hend
      | cons d text =>
        have hlonger := ih (List.cons_ne_nil d text) hline.2
        rw [hspan] at hlonger
        exact absurd hlonger (by simp)

/-- A span goes on at least as far as any tip with the end of a link behind it. -/
theorem prefix_of_spanTo? {mark : Char} {text found : List Char} {e : LinkEnd} (hne : text ≠ [])
    (hline : '\n' ∉ text) (hend : (linkEnd? rest).isSome)
    (h : spanTo? mark (text ++ mark :: '>' :: rest) = some (found, e)) : text <+: found := by
  induction text generalizing found e with
  | nil => exact absurd rfl hne
  | cons c text ih =>
    rw [List.mem_cons, not_or] at hline
    rw [List.cons_append, spanTo?, if_neg (Ne.symm hline.1)] at h
    cases hlonger : spanTo? mark (text ++ mark :: '>' :: rest) with
    | some longer =>
      obtain ⟨found', e'⟩ := longer
      rw [hlonger] at h
      obtain ⟨rfl, -⟩ := Prod.mk.inj (Option.some.inj h)
      cases text with
      | nil => exact ⟨found', rfl⟩
      | cons d text =>
        exact (List.prefix_cons_inj c).mpr (ih (List.cons_ne_nil d text) hline.2 hlonger)
    | none =>
      cases text with
      | nil =>
        rw [hlonger] at h
        obtain ⟨rest', -, h⟩ := Option.bind_eq_some_iff.mp h
        obtain ⟨e', -, heq⟩ := Option.map_eq_some_iff.mp h
        exact (Prod.mk.inj heq).1 ▸ List.prefix_refl [c]
      | cons d text =>
        have hsome : (spanTo? mark (d :: text ++ mark :: '>' :: rest)).isSome :=
          isSome_spanTo? (List.cons_ne_nil d text) hline.2 hend
        rw [hlonger] at hsome
        exact absurd hsome (by simp)

theorem isSome_spanningArrow? {mark : Char} {text : List Char} (hne : text ≠ [])
    (hline : '\n' ∉ text) (hend : (linkEnd? rest).isSome) :
    (spanningArrow? mark (mark :: (text ++ [mark, '>']) ++ rest)).isSome := by
  have hform : mark :: (text ++ [mark, '>']) ++ rest =
      [mark] ++ (text ++ mark :: '>' :: rest) := by simp
  rw [hform, spanningArrow?, Text.dropLead?_append, Option.bind_some, Option.isSome_map]
  exact isSome_spanTo? hne hline hend

theorem isSome_link?_iff : (link? cs).isSome = true ↔
    (dashedText? cs).isSome ∨ (fixedArrow? ['-', '-', '>'] cs).isSome ∨
      (fixedArrow? ['=', '=', '>'] cs).isSome ∨ (spanningArrow? '-' cs).isSome ∨
      (spanningArrow? '=' cs).isSome := by
  simp only [link?, Option.orElse_eq_orElse, Option.orElse_eq_or, Option.isSome_or,
    Bool.or_eq_true]

/-- An arrow of any form is found when a target follows it. -/
theorem ArrowForm.isSome_link? {arrow : List Char} (h : ArrowForm arrow) (hline : '\n' ∉ arrow)
    (hend : (linkEnd? rest).isSome) : (link? (arrow ++ rest)).isSome := by
  obtain ⟨e, he⟩ := Option.isSome_iff_exists.mp hend
  rw [isSome_link?_iff]
  cases h with
  | plain =>
    have hfixed : fixedArrow? ['-', '-', '>'] (['-', '-', '>'] ++ rest) = _ :=
      fixedArrow?_append he
    exact Or.inr (Or.inl (hfixed ▸ rfl))
  | thick =>
    have hfixed : fixedArrow? ['=', '=', '>'] (['=', '=', '>'] ++ rest) = _ :=
      fixedArrow?_append he
    exact Or.inr (Or.inr (Or.inl (hfixed ▸ rfl)))
  | @dashes text hne =>
    have htext : '\n' ∉ text := fun hmem => hline (by simp [hmem])
    exact Or.inr (Or.inr (Or.inr (Or.inl (isSome_spanningArrow? hne htext hend))))
  | @doubles text hne =>
    have htext : '\n' ∉ text := fun hmem => hline (by simp [hmem])
    exact Or.inr (Or.inr (Or.inr (Or.inr (isSome_spanningArrow? hne htext hend))))

/-- An arrow starts with no blank. -/
theorem ArrowForm.trimStart_append {arrow : List Char} (h : ArrowForm arrow) {blanks : List Char}
    (hblanks : Text.Blanks blanks) (rest : List Char) :
    Text.trimStart (blanks ++ (arrow ++ rest)) = arrow ++ rest := by
  rw [hblanks.trimStart_append]
  cases h <;> rfl

end Arrow

section Source

variable {α : Type} {rule : List Char → Option α}

theorem growsLeft_sourced? : GrowsLeft (sourced? rule) := by
  intro c d cs hc _ hfits
  obtain ⟨⟨source, a⟩, hsource⟩ := Option.isSome_iff_exists.mp hfits
  rw [sourced?, if_pos hc, hsource]
  rfl

/-- Any word will do as a source when the rule answers behind it and behind blanks. -/
theorem isSome_sourced? {w : List Char} (hw : IsWord w)
    (h : (rule (Text.trimStart rest)).isSome) : (sourced? rule (w ++ rest)).isSome := by
  obtain ⟨hne, hall⟩ := hw
  induction w with
  | nil => exact absurd rfl hne
  | cons c w ih =>
    rw [List.cons_append, sourced?, if_pos (hall c List.mem_cons_self)]
    cases hlonger : sourced? rule (w ++ rest) with
    | some found => rfl
    | none =>
      cases w with
      | nil => simpa using h
      | cons d w =>
        have hrest := ih (List.cons_ne_nil d w) fun e he => hall e (List.mem_cons_of_mem c he)
        rw [hlonger] at hrest
        exact absurd hrest (by simp)

end Source

namespace LinkCut

variable {k : LinkCut}

theorem mem_line_of_mem_arrow {c : Char} (h : c ∈ k.arrow) : c ∈ k.line := by
  simp [line, h]

theorem IsLink.fitsBehind (h : k.IsLink) (hline : '\n' ∉ k.line) :
    FitsBehind (sourced? link?) false k.line k.before := by
  have hlink : (link? (Text.trimStart (k.blanks ++ (k.arrow ++ k.ending)))).isSome := by
    rw [h.arrow.trimStart_append h.blanks]
    exact h.arrow.isSome_link? (fun hmem => hline (mem_line_of_mem_arrow hmem)) h.isSome_linkEnd?
  have hfits := isSome_sourced? h.source hlink
  obtain ⟨c, s, hsource, hc, -⟩ := h.source.exists_cons
  rw [hsource] at hfits
  refine fitsBehind_of_split ?_ hc hfits
  rw [line, hsource]
  rfl

end LinkCut

end FlowchartSlides.Flowchart
