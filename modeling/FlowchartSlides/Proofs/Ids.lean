import FlowchartSlides.Proofs.Definitions
import FlowchartSlides.Proofs.Described
import FlowchartSlides.Proofs.Trimming

/-!
# Ids that a text mentions

Every rule takes ids from maximal runs of id characters, so whatever the text,
the ids of its statements are words. Labels and edges are not looked at here.
-/
namespace FlowchartSlides.Flowchart

variable {α : Type} {rule : List Char → Option α} {cs : List Char}

/-- The rule that answers at a word does so at an id character of the text. -/
theorem exists_of_firstAtWord? {inside : Bool} {a : α} (h : firstAtWord? rule inside cs = some a) :
    ∃ c s, isIdChar c = true ∧ c :: s <:+ cs ∧ rule (c :: s) = some a := by
  induction cs generalizing inside with
  | nil => simp at h
  | cons d cs ih =>
    have hrest : ∀ b, firstAtWord? rule b cs = some a →
        ∃ c s, isIdChar c = true ∧ c :: s <:+ d :: cs ∧ rule (c :: s) = some a := by
      intro b hb
      obtain ⟨c, s, hc, hsuf, hr⟩ := ih hb
      exact ⟨c, s, hc, hsuf.trans (List.suffix_cons d cs), hr⟩
    by_cases hd : isIdChar d = true
    · cases inside with
      | true =>
        rw [firstAtWord?_inside hd] at h
        exact hrest true h
      | false =>
        rw [firstAtWord?_start hd, Option.or_eq_some_iff] at h
        rcases h with h | ⟨-, h⟩
        · exact ⟨d, cs, hd, List.suffix_refl _, h⟩
        · exact hrest true h
    · rw [Bool.not_eq_true] at hd
      rw [firstAtWord?_gap hd] at h
      exact hrest false h

theorem IsWord.isTrimmed {w : List Char} (h : IsWord w) : Text.IsTrimmed w :=
  Text.isTrimmed_of_forall fun c hc => not_isBlank_of_isIdChar (h.idChars c hc)

/-- No blank stands before a word. -/
theorem IsWord.trimStart_append {w : List Char} (h : IsWord w) (after : List Char) :
    Text.trimStart (w ++ after) = w ++ after := by
  obtain ⟨c, s, rfl, hc, -⟩ := h.exists_cons
  apply Text.trimStart_eq_self
  intro d hd
  obtain rfl : c = d := by simpa using hd
  exact not_isBlank_of_isIdChar hc

theorem IsWord.not_mem {w : List Char} (h : IsWord w) {c : Char} (hc : isIdChar c = false) :
    c ∉ w := by
  intro hmem
  rw [h.idChars c hmem] at hc
  exact Bool.false_ne_true hc.symm

theorem isWord_of_word? {w : List Char} (h : word? cs = some w) : IsWord w := by
  unfold word? at h
  split at h
  next => simp at h
  next hne =>
    obtain rfl := Option.some.inj h
    exact ⟨hne, fun c hc => List.mem_takeWhile_imp hc⟩

/-- A source is a word at the start of the text, and the rule answers behind it and
behind blanks. -/
theorem exists_of_sourced? {source : List Char} {a : α} (h : sourced? rule cs = some (source, a)) :
    IsWord source ∧ ∃ rest, cs = source ++ rest ∧ rule (Text.trimStart rest) = some a := by
  induction cs generalizing source with
  | nil => simp [sourced?] at h
  | cons c cs ih =>
    rw [sourced?] at h
    split at h
    next hc =>
      split at h
      next s b hs =>
        obtain ⟨rfl, rfl⟩ := Prod.mk.inj (Option.some.inj h)
        obtain ⟨hword, rest, rfl, hrest⟩ := ih hs
        refine ⟨⟨List.cons_ne_nil c s, ?_⟩, rest, rfl, hrest⟩
        intro d hd
        rcases List.mem_cons.mp hd with rfl | hd
        · exact hc
        · exact hword.idChars d hd
      next =>
        obtain ⟨b, hb, heq⟩ := Option.map_eq_some_iff.mp h
        obtain ⟨rfl, rfl⟩ := Prod.mk.inj heq
        refine ⟨⟨List.cons_ne_nil c [], ?_⟩, cs, rfl, hb⟩
        intro d hd
        rwa [List.mem_singleton.mp hd]
    next => simp at h

theorem isWord_of_linkEnd? {e : LinkEnd} (h : linkEnd? cs = some e) : IsWord e.target := by
  unfold linkEnd? at h
  split at h
  next =>
    obtain ⟨w, hw, rfl⟩ := Option.map_eq_some_iff.mp h
    exact isWord_of_word? hw
  next =>
    obtain ⟨w, hw, rfl⟩ := Option.map_eq_some_iff.mp h
    exact isWord_of_word? hw

/-- What the text of a link is made of: an arrow with a tip, and the end of the link
behind it. -/
structure Link.StandsAt (l : Link) (cs : List Char) : Prop where
  tip : l.arrow.getLast? = some '>'
  written : ∃ rest, cs = l.arrow ++ rest ∧ linkEnd? rest = some l.ending

theorem standsAt_of_fixedArrow? {arrow : List Char} (htip : arrow.getLast? = some '>') {l : Link}
    (h : fixedArrow? arrow cs = some l) : l.StandsAt cs := by
  obtain ⟨rest, hlead, h⟩ := Option.bind_eq_some_iff.mp h
  obtain ⟨e, he, rfl⟩ := Option.map_eq_some_iff.mp h
  exact ⟨htip, rest, Text.eq_append_of_dropLead? hlead, he⟩

theorem exists_of_spanTo? {mark : Char} {text : List Char} {e : LinkEnd}
    (h : spanTo? mark cs = some (text, e)) :
    ∃ rest, cs = text ++ (mark :: '>' :: rest) ∧ linkEnd? rest = some e := by
  induction cs generalizing text with
  | nil => simp [spanTo?] at h
  | cons c cs ih =>
    rw [spanTo?] at h
    split at h
    next => simp at h
    next =>
      split at h
      next t e' ht =>
        obtain ⟨rfl, rfl⟩ := Prod.mk.inj (Option.some.inj h)
        obtain ⟨rest, rfl, hrest⟩ := ih ht
        exact ⟨rest, rfl, hrest⟩
      next =>
        obtain ⟨rest, hlead, h⟩ := Option.bind_eq_some_iff.mp h
        obtain ⟨e', he, heq⟩ := Option.map_eq_some_iff.mp h
        obtain ⟨rfl, rfl⟩ := Prod.mk.inj heq
        have hcs := Text.eq_append_of_dropLead? hlead
        exact ⟨rest, congrArg (c :: ·) hcs, he⟩

theorem ne_nil_of_spanTo? {mark : Char} {text : List Char} {e : LinkEnd}
    (h : spanTo? mark cs = some (text, e)) : text ≠ [] := by
  cases cs with
  | nil => simp [spanTo?] at h
  | cons c cs =>
    rw [spanTo?] at h
    split at h
    next => simp at h
    next =>
      split at h
      next =>
        obtain ⟨rfl, -⟩ := Prod.mk.inj (Option.some.inj h)
        exact List.cons_ne_nil _ _
      next =>
        obtain ⟨rest, -, h⟩ := Option.bind_eq_some_iff.mp h
        obtain ⟨e', -, heq⟩ := Option.map_eq_some_iff.mp h
        exact (Prod.mk.inj heq).1 ▸ List.cons_ne_nil c []

theorem standsAt_of_spanningArrow? {mark : Char} {l : Link}
    (h : spanningArrow? mark cs = some l) : l.StandsAt cs := by
  obtain ⟨rest, hlead, h⟩ := Option.bind_eq_some_iff.mp h
  obtain ⟨⟨text, e⟩, hspan, rfl⟩ := Option.map_eq_some_iff.mp h
  obtain ⟨rest', rfl, he⟩ := exists_of_spanTo? hspan
  have harrow : mark :: text ++ [mark, '>'] = (mark :: text ++ [mark]) ++ ['>'] := by simp
  refine ⟨List.getLast?_eq_some_iff.mpr ⟨_, harrow⟩, rest', ?_, he⟩
  rw [Text.eq_append_of_dropLead? hlead]
  simp

theorem standsAt_of_dashedText? {l : Link} (h : dashedText? cs = some l) : l.StandsAt cs := by
  obtain ⟨rest, hlead, h⟩ := Option.bind_eq_some_iff.mp h
  obtain ⟨rest', hclose, h⟩ := Option.bind_eq_some_iff.mp h
  obtain ⟨e, he, rfl⟩ := Option.map_eq_some_iff.mp h
  have harrow : '-' :: '-' :: rest.takeWhile (· != '-') ++ ['-', '>'] =
      ('-' :: '-' :: rest.takeWhile (· != '-') ++ ['-']) ++ ['>'] := by simp
  have hrest : rest.takeWhile (· != '-') ++ (['-', '>'] ++ rest') = rest := by
    rw [← Text.eq_append_of_dropLead? hclose, List.takeWhile_append_dropWhile]
  have hcs : cs = '-' :: '-' :: rest := Text.eq_append_of_dropLead? hlead
  refine ⟨List.getLast?_eq_some_iff.mpr ⟨_, harrow⟩, rest', ?_, he⟩
  calc cs = '-' :: '-' :: (rest.takeWhile (· != '-') ++ (['-', '>'] ++ rest')) := by rw [hrest, hcs]
    _ = '-' :: '-' :: rest.takeWhile (· != '-') ++ ['-', '>'] ++ rest' := by simp

/-- Whatever the kind of arrow, a link that is read stands at the start of the text. -/
theorem standsAt_of_link? {l : Link} (h : link? cs = some l) : l.StandsAt cs := by
  simp only [link?, Option.orElse_eq_orElse, Option.orElse_eq_or, Option.or_eq_some_iff] at h
  rcases h with h | ⟨-, h | ⟨-, h | ⟨-, h | ⟨-, h⟩⟩⟩⟩
  · exact standsAt_of_dashedText? h
  · exact standsAt_of_fixedArrow? rfl h
  · exact standsAt_of_fixedArrow? rfl h
  · exact standsAt_of_spanningArrow? h
  · exact standsAt_of_spanningArrow? h

theorem isWord_of_plainLink? {target : List Char} (h : plainLink? cs = some target) :
    IsWord target := by
  obtain ⟨rest, -, h⟩ := Option.bind_eq_some_iff.mp h
  exact isWord_of_word? h

/-- The rule that is named is one that reads the line so. -/
theorem apply_of_classify? {r : Rule} {st : Statement} (h : classify? cs = some (r, st)) :
    r.apply cs = some st := by
  obtain ⟨r', -, hr⟩ := List.exists_of_findSome?_eq_some h
  obtain ⟨st', happly, heq⟩ := Option.map_eq_some_iff.mp hr
  obtain ⟨rfl, rfl⟩ := Prod.mk.inj heq
  exact happly

end FlowchartSlides.Flowchart
