import FlowchartSlides.Proofs.DecoratedStatements
import FlowchartSlides.Proofs.DefinitionGrammar
import FlowchartSlides.Proofs.Ids

/-!
# Groups of a text

A text is a row of groups and of single characters between them. Merging icons keeps
this row: the characters stay, and a group gets a new content at most once, behind a
mapped id alone. The new content is the icon and the trimmed label, in the quotes of
the old one.
-/
namespace FlowchartSlides

namespace Flowchart

/-- A group of a text, or one of the characters that belong to no group. -/
inductive Piece where
  | char (c : Char)
  | group (content : List Char)
deriving Repr, DecidableEq

namespace Piece

def chars : Piece → List Char
  | char c => [c]
  | group content => '[' :: (content ++ [']'])

/-- The text that pieces make. -/
def spell (ps : List Piece) : List Char := ps.flatMap chars

end Piece

/-- The pieces of a text, from left to right. -/
def pieces : List Char → List Piece
  | [] => []
  | c :: cs =>
    match group? (c :: cs) with
    -- no group starts inside a group: its content and its bracket are single characters of `cs`
    | some (content, _) => .group content :: (pieces cs).drop (content.length + 1)
    | none => .char c :: pieces cs

variable {c : Char} {a r s t : List Char}

theorem pieces_char (h : group? (c :: s) = none) : pieces (c :: s) = .char c :: pieces s := by
  rw [pieces, h]

/-- Where no group starts there are single characters. -/
theorem pieces_append_of_not_mem {x : List Char} (hx : '[' ∉ x) (s : List Char) :
    pieces (x ++ s) = x.map .char ++ pieces s := by
  induction x with
  | nil => rfl
  | cons c x ih =>
    rw [List.mem_cons, not_or] at hx
    have hnone : group? (c :: (x ++ s)) = none := by
      cases hg : group? (c :: (x ++ s)) with
      | none => rfl
      | some found =>
        obtain ⟨-, hcs⟩ := group?_eq_some_iff.mp hg
        exact absurd (List.cons.inj hcs).1.symm hx.1
    rw [List.cons_append, pieces_char hnone, ih hx.2]
    rfl

theorem pieces_inside (ha : IsContent a) (r : List Char) :
    pieces (a ++ ']' :: r) = (a ++ [']']).map .char ++ pieces r := by
  rw [← pieces_append_of_not_mem ha.not_mem_open, List.append_assoc, List.singleton_append]

theorem pieces_group (ha : IsContent a) (r : List Char) :
    pieces ('[' :: (a ++ ']' :: r)) = .group a :: pieces r := by
  have hlength : a.length + 1 = ((a ++ [']']).map Piece.char).length := by simp
  rw [pieces, group?_written ha, pieces_inside ha]
  simp only
  rw [hlength, List.drop_left]

/-- Induction over the pieces of a text. -/
theorem pieces_induction {motive : List Char → Prop} (nil : motive [])
    (char : ∀ c s, group? (c :: s) = none → motive s → motive (c :: s))
    (group : ∀ a r, IsContent a → motive r → motive ('[' :: (a ++ ']' :: r))) (cs : List Char) :
    motive cs := by
  induction hn : cs.length using Nat.strong_induction_on generalizing cs with
  | _ n ih =>
    cases cs with
    | nil => exact nil
    | cons c s =>
      cases hg : group? (c :: s) with
      | none => exact char c s hg (ih _ (hn ▸ Nat.lt_succ_self s.length) s rfl)
      | some found =>
        obtain ⟨a, r⟩ := found
        obtain ⟨ha, heq⟩ := group?_eq_some_iff.mp hg
        rw [heq]
        refine group a r ha (ih _ ?_ r rfl)
        rw [← hn, heq, List.length_cons, List.length_append, List.length_cons]
        omega

/-- The pieces of a text make the text. -/
theorem spell_pieces (cs : List Char) : Piece.spell (pieces cs) = cs := by
  induction cs using pieces_induction with
  | nil => rfl
  | char c s hnone ih =>
    rw [pieces_char hnone, Piece.spell, List.flatMap_cons, ← Piece.spell, ih]
    rfl
  | group a r ha ih =>
    rw [pieces_group ha, Piece.spell, List.flatMap_cons, ← Piece.spell, ih]
    simp [Piece.chars]

/-- Where no group starts in a text, none starts in one that differs inside groups. -/
theorem Regrouped.group?_eq_none {P : List Char → List Char → Prop}
    (h : Regrouped P (c :: s) (c :: t)) (hs : group? (c :: s) = none) : group? (c :: t) = none := by
  cases ht : group? (c :: t) with
  | none => rfl
  | some found =>
    obtain ⟨ha, heq⟩ := group?_eq_some_iff.mp ht
    have hsymm := h.symm
    rw [heq] at hsymm
    obtain ⟨a', r', ha', -, hcs, -⟩ := hsymm.of_group ha
    rw [hcs, group?_written ha'] at hs
    exact absurd hs (by simp)

/-- Texts that differ inside groups have as many pieces. -/
theorem Regrouped.length_pieces {P : List Char → List Char → Prop} (h : Regrouped P s t) :
    (pieces t).length = (pieces s).length := by
  induction s using pieces_induction generalizing t with
  | nil => rw [h.eq_nil_iff.mpr rfl]
  | char c s hnone ih =>
    cases h with
    | char _ h =>
      rw [pieces_char hnone, pieces_char ((h.char c).group?_eq_none hnone), List.length_cons,
        List.length_cons, ih h]
    | group ha _ _ _ => exact absurd hnone (by rw [group?_written ha]; simp)
  | group a r ha ih =>
    obtain ⟨a', r', ha', -, rfl, hr⟩ := h.of_group ha
    rw [pieces_group ha, pieces_group ha', List.length_cons, List.length_cons, ih hr]

/-- A content that begins before an opening bracket is closed before it. -/
theorem IsContent.exists_of_append_open (ha : IsContent a) {r y : List Char}
    (h : a ++ ']' :: r = s ++ '[' :: y) : ∃ z, s = a ++ ']' :: z := by
  have hcut : s ++ '[' :: y = (a ++ [']']) ++ r := by simpa using h.symm
  rcases List.append_eq_append_iff.mp hcut with ⟨z, hz, hopen⟩ | ⟨z, hz, -⟩
  · cases z with
    | nil => exact ⟨[], by simpa using hz.symm⟩
    | cons d z =>
      obtain ⟨rfl, -⟩ := List.cons.inj hopen
      exact absurd (hz ▸ by simp) ha.not_mem_open
  · exact ⟨z, by simpa using hz⟩

/-- No group runs over an opening bracket. -/
theorem pieces_append_open (s y : List Char) :
    pieces (s ++ '[' :: y) = pieces s ++ pieces ('[' :: y) := by
  induction s using pieces_induction with
  | nil => rfl
  | char c s hnone ih =>
    have hkeep : group? (c :: (s ++ '[' :: y)) = none := by
      cases hg : group? (c :: (s ++ '[' :: y)) with
      | none => rfl
      | some found =>
        obtain ⟨a, r⟩ := found
        obtain ⟨ha, heq⟩ := group?_eq_some_iff.mp hg
        obtain ⟨rfl, hrest⟩ := List.cons.inj heq
        obtain ⟨z, rfl⟩ := ha.exists_of_append_open hrest.symm
        rw [group?_written ha] at hnone
        exact absurd hnone (by simp)
    rw [List.cons_append, pieces_char hkeep, pieces_char hnone, ih, List.cons_append]
  | group a r ha ih =>
    have happ : '[' :: (a ++ ']' :: r) ++ '[' :: y = '[' :: (a ++ ']' :: (r ++ '[' :: y)) := by simp
    rw [happ, pieces_group ha, pieces_group ha, ih, List.cons_append]

/-- The word right before a place, blanks in between skipped; empty when there is none. -/
def wordBefore (before : List Char) : List Char :=
  (leadingWord (Text.trimEnd before).reverse).reverse

theorem wordBefore_append {before w b : List Char} (hbefore : EndsOutside before) (hw : IsWord w)
    (hb : Text.Blanks b) : wordBefore (before ++ (w ++ b)) = w := by
  have hlast : ∀ c ∈ (before ++ w).getLast?, Text.isBlank c = false := by
    intro c hc
    rw [List.getLast?_append_of_ne_nil _ hw.ne_nil] at hc
    exact hw.isTrimmed.last c hc
  have hstop : before.reverse.takeWhile isIdChar = [] := by
    cases hrev : before.reverse with
    | nil => rfl
    | cons c s =>
      have hc : isIdChar c = false := hbefore c (by rw [← List.head?_reverse, hrev]; rfl)
      exact List.takeWhile_cons_of_neg (by simp [hc])
  have hword : ∀ c ∈ w.reverse, isIdChar c = true :=
    fun c hc => hw.idChars c (List.mem_reverse.mp hc)
  rw [wordBefore, ← List.append_assoc, hb.trimEnd_append, Text.trimEnd_eq_self hlast,
    List.reverse_append, leadingWord, List.takeWhile_append_of_pos hword, hstop, List.append_nil,
    List.reverse_reverse]

end Flowchart

namespace IconMap

open Flowchart

/-- The icon and the trimmed label instead of the label, in the quotes of the label. -/
inductive Prefixed (icon : List Char) : List Char → List Char → Prop
  | quoted {q : Char} {label : List Char} : isQuote q = true → label ≠ [] →
      Prefixed icon (q :: (label ++ [q])) (q :: (icon ++ ' ' :: (Text.trim label ++ [q])))
  | bare {label : List Char} : ¬IsQuoted label →
      Prefixed icon label (icon ++ ' ' :: Text.trim label)

theorem prefixed_withIcon (icon a : List Char) : Prefixed icon a (withIcon icon a) := by
  by_cases h : IsQuoted a
  · obtain ⟨q, label, hq, hne, rfl⟩ := exists_of_isQuoted h
    have hnew : withIcon icon (q :: (label ++ [q])) =
        q :: (icon ++ ' ' :: (Text.trim label ++ [q])) := by
      rw [withIcon, ofContent_quoted hq hne]
      simp
    rw [hnew]
    exact .quoted hq hne
  · have hquote : (Quoting.ofContent a).quote = [] := by
      have hwhole := Quoting.ofContent_eq a
      rw [(inner_ofContent a).2 h] at hwhole
      have hlength := congrArg List.length hwhole
      simp only [List.length_append] at hlength
      exact List.length_eq_zero_iff.mp (by omega)
    have hnew : withIcon icon a = icon ++ ' ' :: Text.trim a := by
      rw [withIcon, hquote, (inner_ofContent a).2 h]
      simp
    rw [hnew]
    exact .bare h

/-- An icon before a label makes another text of it. -/
theorem icon_label_ne {icon label : List Char} (htrim : Text.IsTrimmed icon) (hne : icon ≠ []) :
    icon ++ ' ' :: Text.trim label ≠ label := by
  intro h
  obtain ⟨c, v, rfl⟩ := List.exists_cons_of_ne_nil hne
  have hhead : label.head? = some c := by rw [← h]; rfl
  have hlabel : Text.trim label ≠ [] := by
    intro hnil
    have hblank := Text.blanks_of_trim_eq_nil hnil c (List.mem_of_head? hhead)
    rw [htrim.head c rfl] at hblank
    exact Bool.false_ne_true hblank
  have hlast : label.getLast? = (Text.trim label).getLast? := by
    conv_lhs => rw [← h]
    rw [List.getLast?_append_of_ne_nil _ (List.cons_ne_nil _ _),
      List.getLast?_cons_of_ne_nil hlabel]
  have hwhole : Text.IsTrimmed label :=
    ⟨fun d hd => htrim.head d (by rw [hhead] at hd; exact hd),
      by rw [hlast]; exact (Text.isTrimmed_trim label).last⟩
  have hlength := congrArg List.length h
  rw [hwhole.trim_eq, List.length_append, List.length_cons, List.length_cons] at hlength
  omega

theorem Prefixed.ne {icon a a' : List Char} (h : Prefixed icon a a') (htrim : Text.IsTrimmed icon)
    (hne : icon ≠ []) : a' ≠ a := by
  cases h with
  | quoted _ _ =>
    intro heq
    obtain ⟨-, hrest⟩ := List.cons.inj heq
    rw [← List.cons_append, ← List.append_assoc] at hrest
    exact icon_label_ne htrim hne (List.append_cancel_right hrest)
  | bare _ => exact icon_label_ne htrim hne

/-- What merging does to the pieces that stand behind `before`: it keeps each of them,
or it puts an icon into a group behind the id of that icon. -/
inductive Merges (icon? : List Char → Option (List Char)) :
    List Char → List Piece → List Piece → Prop
  | nil {before : List Char} : Merges icon? before [] []
  | keep {before : List Char} (p : Piece) {ps qs : List Piece} :
      Merges icon? (before ++ p.chars) ps qs → Merges icon? before (p :: ps) (p :: qs)
  | decorate {before a a' icon : List Char} {ps qs : List Piece} :
      icon? (wordBefore before) = some icon → Prefixed icon a a' →
      Merges icon? (before ++ (Piece.group a).chars) ps qs →
      Merges icon? before (.group a :: ps) (.group a' :: qs)

namespace Merges

variable {icon? : List Char → Option (List Char)} {before x : List Char} {ps qs : List Piece}

theorem chars_append (h : Merges icon? (before ++ x) ps qs) :
    Merges icon? before (x.map .char ++ ps) (x.map .char ++ qs) := by
  induction x generalizing before with
  | nil => rwa [List.append_nil] at h
  | cons c x ih =>
    rw [List.append_cons] at h
    exact .keep (.char c) (ih h)

theorem of_chars_append (h : Merges icon? before (x.map .char ++ ps) (x.map .char ++ qs)) :
    Merges icon? (before ++ x) ps qs := by
  induction x generalizing before with
  | nil => rwa [List.append_nil]
  | cons c x ih =>
    cases h with
    | keep _ h =>
      rw [List.append_cons]
      exact ih h

end Merges

/-- Decorating keeps the pieces, or puts icons into groups behind their ids. -/
theorem merges_decorateAll {icon? : List Char → Option (List Char)}
    (hicon : ∀ w icon, icon? w = some icon → ∀ c ∈ icon, isBracket c = false)
    {inside : Bool} {before : List Char} (hbefore : inside = false → EndsOutside before)
    (last cs : List Char) :
    Merges icon? before (pieces cs) (pieces (decorateAll icon? inside last cs)) := by
  induction inside, last, cs using decorateAll_induction icon? generalizing before with
  | nil => rw [decorateAll_nil]; exact .nil
  | draw last w b a r icon hdef hne hic ih =>
    have hx := hdef.not_mem_open
    have ha' := withIcon_isContent (hicon w icon hic) hdef.content
    have hword : icon? (wordBefore (before ++ (w ++ b))) = some icon := by
      rw [wordBefore_append (hbefore rfl) hdef.word hdef.blanks, hic]
    rw [decorateAll_draw hdef hne hic, written, written, ← List.append_assoc, ← List.append_assoc,
      pieces_append_of_not_mem hx, pieces_append_of_not_mem hx, pieces_group hdef.content,
      pieces_group ha']
    refine Merges.chars_append (.decorate hword (prefixed_withIcon icon a) (ih fun _ => ?_))
    rw [Piece.chars, ← List.cons_append, ← List.append_assoc]
    exact endsOutside_concat isIdChar_close _
  | keep inside last c s hnone ih =>
    have hrest := @ih (before ++ [c]) fun hc => endsOutside_concat hc before
    have hre := (regrouped_decorateAll hicon (isIdChar c) [] s).char c
    rw [decorateAll_keep hnone]
    cases hg : group? (c :: s) with
    | none =>
      rw [pieces_char hg, pieces_char (hre.group?_eq_none hg)]
      exact .keep (.char c) hrest
    | some found =>
      obtain ⟨a, r⟩ := found
      obtain ⟨ha, heq⟩ := group?_eq_some_iff.mp hg
      obtain ⟨rfl, rfl⟩ := List.cons.inj heq
      rw [decorateAll_close ha.plain] at hrest ⊢
      rw [pieces_inside ha, pieces_inside ha] at hrest
      rw [pieces_group ha, pieces_group ha]
      have hbehind := hrest.of_chars_append
      rw [List.append_assoc] at hbehind
      exact .keep (.group a) hbehind

/-- Ids are words, and icons hold no bracket. -/
structure Plain (icons : IconMap) : Prop where
  words : ∀ id ∈ icons.keys, IsWord id.toList
  plain : ∀ icon ∈ icons.values, ∀ c ∈ icon.toList, isBracket c = false

instance (icons : IconMap) : Decidable icons.Plain :=
  decidable_of_iff ((∀ id ∈ icons.keys, IsWord id.toList) ∧
      ∀ icon ∈ icons.values, icon.toList.all (!isBracket ·) = true)
    ⟨fun h => ⟨h.1, fun icon hicon => by simpa using h.2 icon hicon⟩,
      fun h => ⟨h.words, fun icon hicon => by simpa using h.plain icon hicon⟩⟩

theorem Plain.plain_iconOf? {icons : IconMap} (h : icons.Plain) (w icon : List Char)
    (hic : icons.iconOf? w = some icon) : ∀ c ∈ icon, isBracket c = false := by
  obtain ⟨text, htext, rfl⟩ := Option.map_eq_some_iff.mp hic
  obtain ⟨raw, hraw, hpresent⟩ := Option.bind_eq_some_iff.mp htext
  rw [present?] at hpresent
  split at hpresent
  next => simp at hpresent
  next =>
    obtain rfl := Option.some.inj hpresent
    intro c hc
    rw [Text.trimmed, String.toList_ofList] at hc
    exact h.plain raw (Table.mem_values_of_get? hraw) c (Text.mem_of_mem_trim hc)

/-- Merging keeps the text outside of groups and the number of groups. A group stays, or
it stands behind a mapped id and gets the icon of that id once, before its trimmed label
and in its quotes. Without icons the whole text stays. -/
theorem mergeInto_merges {icons : IconMap} (h : icons.Plain) (source : String) :
    Merges icons.iconOf? [] (pieces source.toList) (pieces (icons.mergeInto source).toList) ∧
      ((∀ id ∈ icons.keys, icons.icon? id = none) → icons.mergeInto source = source) := by
  have hmerged := mergeInto_eq_decorateAll h.words h.plain_iconOf? source
  refine ⟨?_, fun hnone => ?_⟩
  · rw [hmerged, String.toList_ofList]
    exact merges_decorateAll h.plain_iconOf? (fun _ _ hc => absurd hc (by simp)) [] source.toList
  · have hicons : icons.iconOf? = fun _ => none := by
      funext w
      rw [← iconAmong?_keys, iconAmong?]
      split
      next hid => rw [iconOf?, hnone _ hid, Option.map_none]
      next => rfl
    rw [hmerged, hicons, decorateAll_none, String.ofList_toList]

/-- A quoted label behind blanks, and a group that belongs to no id. -/
theorem mergeInto_merges_quoted :
    let icons : IconMap := .ofList [("A", "🚀"), ("B", " ")]
    let source := "A \n[\"Start\"]B[End] [note]"
    icons.Plain ∧ icons.mergeInto source = "A \n[\"🚀 Start\"]B[End] [note]" ∧
      Merges icons.iconOf? [] (pieces source.toList) (pieces (icons.mergeInto source).toList) := by
  intro icons source
  have hplain : icons.Plain := by decide
  exact ⟨hplain, by decide +kernel, (mergeInto_merges hplain source).1⟩

end IconMap

end FlowchartSlides
