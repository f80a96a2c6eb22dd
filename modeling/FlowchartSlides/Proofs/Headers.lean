import FlowchartSlides.Proofs.DecoratedStatements
import Mathlib.Data.List.Infix

/-!
# Headers and the direction of a text

A header is the keyword, blanks and a direction, one after the other: it holds
no bracket and no quote, and it ends with a letter. So the contents of groups
can be looked at one by one, and giving a label an icon without the keyword
moves no header.
-/
namespace FlowchartSlides.Flowchart

/-- Whether the keyword stands somewhere in a text, in any case of its letters. -/
def holdsKeyword (cs : List Char) : Bool :=
  cs.tails.any fun t => Text.sameIgnoringCase (t.take keyword.length) keyword

/-- A header: the keyword, blanks and a direction. -/
structure IsHeader (k b e : List Char) (d : Direction) : Prop where
  word : Text.sameIgnoringCase k keyword = true
  blanks : Text.Blanks b
  ne_nil : b ≠ []
  direction : Direction.ofChars? e = some d

theorem map_toLower_keyword {k : List Char} (h : Text.sameIgnoringCase k keyword = true) :
    k.map Char.toLower = keyword.map Char.toLower := by
  simpa [Text.sameIgnoringCase] using h

theorem length_keyword {k : List Char} (h : Text.sameIgnoringCase k keyword = true) :
    k.length = keyword.length := by
  have hlen := congrArg List.length (map_toLower_keyword h)
  rwa [List.length_map, List.length_map] at hlen

/-- The letters of a direction. -/
theorem toUpper_of_mem_direction {e : List Char} {d : Direction} {c : Char}
    (h : Direction.ofChars? e = some d) (hc : c ∈ e) : c.toUpper ∈ "TDLRB".toList := by
  have hup : c.toUpper ∈ e.map Char.toUpper := List.mem_map_of_mem hc
  rw [Direction.ofChars?] at h
  split at h
  next heq => rw [heq] at hup; revert hup; generalize c.toUpper = x; simp; tauto
  next heq => rw [heq] at hup; revert hup; generalize c.toUpper = x; simp; tauto
  next heq => rw [heq] at hup; revert hup; generalize c.toUpper = x; simp; tauto
  next heq => rw [heq] at hup; revert hup; generalize c.toUpper = x; simp; tauto
  next => simp at h

theorem length_direction {e : List Char} {d : Direction} (h : Direction.ofChars? e = some d) :
    e.length = 2 := by
  rw [← List.length_map Char.toUpper]
  rw [Direction.ofChars?] at h
  split at h
  next heq => rw [heq]; rfl
  next heq => rw [heq]; rfl
  next heq => rw [heq]; rfl
  next heq => rw [heq]; rfl
  next => simp at h

/-- Case changes letters alone, and no blank is a letter. -/
theorem toUpper_of_isBlank {c : Char} (h : Text.isBlank c = true) : c.toUpper = c := by
  have hnot : ¬('a'.val ≤ c.val ∧ c.val ≤ 'z'.val) := by
    rintro ⟨hlo, hhi⟩
    have hlower : c.isLower = true :=
      Bool.and_eq_true_iff.mpr ⟨decide_eq_true hlo, decide_eq_true hhi⟩
    have hword : isIdChar c = true := isIdChar_of_isLower hlower
    rw [not_isIdChar_of_isBlank h] at hword
    exact Bool.false_ne_true hword
  exact dif_neg hnot

theorem toLower_of_isBlank {c : Char} (h : Text.isBlank c = true) : c.toLower = c := by
  have hnot : ¬(c.val ≥ 'A'.val ∧ c.val ≤ 'Z'.val) := by
    intro hrange
    have hupper : c.isUpper = true := decide_eq_true hrange
    have hword : isIdChar c = true := isIdChar_of_isUpper hupper
    rw [not_isIdChar_of_isBlank h] at hword
    exact Bool.false_ne_true hword
  exact dif_neg hnot

theorem not_isBlank_of_mem_direction {e : List Char} {d : Direction} {c : Char}
    (h : Direction.ofChars? e = some d) (hc : c ∈ e) : Text.isBlank c = false := by
  by_contra hb
  rw [Bool.not_eq_false] at hb
  have hup := toUpper_of_mem_direction h hc
  rw [toUpper_of_isBlank hb] at hup
  have hall : "TDLRB".toList.all (!Text.isBlank ·) = true := by decide
  have hc' := List.all_eq_true.mp hall c hup
  rw [hb] at hc'
  exact absurd hc' (by decide)

theorem not_isBlank_of_mem_keyword {k : List Char} {c : Char}
    (h : Text.sameIgnoringCase k keyword = true) (hc : c ∈ k) : Text.isBlank c = false := by
  by_contra hb
  rw [Bool.not_eq_false] at hb
  have hlow : c.toLower ∈ keyword.map Char.toLower := by
    rw [← map_toLower_keyword h]
    exact List.mem_map_of_mem hc
  rw [toLower_of_isBlank hb] at hlow
  have hall : (keyword.map Char.toLower).all (!Text.isBlank ·) = true := by decide
  have hc' := List.all_eq_true.mp hall c hlow
  rw [hb] at hc'
  exact absurd hc' (by decide)

/-- A header is found exactly where one is written. -/
theorem headerHere?_eq_some_iff {cs : List Char} {d : Direction} :
    headerHere? cs = some d ↔ ∃ k b e, IsHeader k b e d ∧ k ++ (b ++ e) <+: cs := by
  constructor
  · intro h
    have hcs := List.take_append_drop keyword.length cs
    have hsplit := List.takeWhile_append_dropWhile (p := Text.isBlank)
      (l := cs.drop keyword.length)
    have hdir := List.take_append_drop 2 (Text.trimStart (cs.drop keyword.length))
    simp only [headerHere?] at h
    split at h
    next c rest hrest =>
      split at h
      next hhead =>
        rw [Bool.and_eq_true] at hhead
        refine ⟨cs.take keyword.length, (cs.drop keyword.length).takeWhile Text.isBlank,
          (Text.trimStart (cs.drop keyword.length)).take 2,
          ⟨hhead.1, Text.blanks_takeWhile _, ?_, h⟩,
          (Text.trimStart (cs.drop keyword.length)).drop 2, ?_⟩
        · rw [hrest, List.takeWhile_cons_of_pos hhead.2]
          exact List.cons_ne_nil _ _
        · rw [List.append_assoc, List.append_assoc, hdir, Text.trimStart, hsplit, hcs]
      next => simp at h
    next => simp at h
  · rintro ⟨k, b, e, hhead, r, rfl⟩
    obtain ⟨c, b, rfl⟩ := List.exists_cons_of_ne_nil hhead.ne_nil
    have hlen := length_keyword hhead.word
    have hdir := length_direction hhead.direction
    have hfirst : ∀ x ∈ (e ++ r).head?, Text.isBlank x = false := by
      cases e with
      | nil => simp at hdir
      | cons x e =>
        intro y hy
        obtain rfl : x = y := by simpa using hy
        exact not_isBlank_of_mem_direction hhead.direction List.mem_cons_self
    have hstart : Text.trimStart (c :: b ++ (e ++ r)) = e ++ r := by
      rw [hhead.blanks.trimStart_append, Text.trimStart_eq_self hfirst]
    have hc : Text.isBlank c = true := hhead.blanks c List.mem_cons_self
    have htake : (e ++ r).take 2 = e := List.take_left' hdir
    simp only [headerHere?, List.append_assoc, List.take_left' hlen, List.drop_left' hlen]
    simp only [List.cons_append] at hstart ⊢
    simp only [hhead.word, hc, Bool.and_self, if_true, hstart, htake, hhead.direction]

/-- Texts with the same headers at their start give the same direction there. -/
theorem headerHere?_congr {s t : List Char}
    (h : ∀ k b e d, IsHeader k b e d → (k ++ (b ++ e) <+: s ↔ k ++ (b ++ e) <+: t)) :
    headerHere? s = headerHere? t := by
  apply Option.ext
  intro d
  rw [headerHere?_eq_some_iff, headerHere?_eq_some_iff]
  constructor
  · rintro ⟨k, b, e, hhead, hs⟩
    exact ⟨k, b, e, hhead, (h k b e d hhead).mp hs⟩
  · rintro ⟨k, b, e, hhead, ht⟩
    exact ⟨k, b, e, hhead, (h k b e d hhead).mpr ht⟩

/-- A text that starts neither with a blank nor within the keyword holds no header
at its start. -/
theorem headerHere?_eq_none {cs : List Char}
    (h : ∀ k b e d, IsHeader k b e d → ¬k ++ (b ++ e) <+: cs) : headerHere? cs = none := by
  cases hhead : headerHere? cs with
  | none => rfl
  | some d =>
    obtain ⟨k, b, e, hk, hpre⟩ := headerHere?_eq_some_iff.mp hhead
    exact absurd hpre (h k b e d hk)

theorem IsHeader.exists_cons {k b e : List Char} {d : Direction} (h : IsHeader k b e d) :
    ∃ c k', k = c :: k' := by
  cases k with
  | nil => exact absurd (length_keyword h.word) (by decide)
  | cons c k => exact ⟨c, k, rfl⟩

/-- Characters that are in no header: brackets and quotes. -/
def isMark (c : Char) : Bool := isBracket c || isQuote c

theorem IsHeader.not_isMark {k b e : List Char} {d : Direction} (h : IsHeader k b e d) {c : Char}
    (hc : c ∈ k ++ (b ++ e)) : isMark c = false := by
  by_contra hm
  rw [Bool.not_eq_false] at hm
  have hcases : c = '[' ∨ c = ']' ∨ c = '"' ∨ c = '\'' := by
    simpa [isMark, isBracket, isQuote, or_assoc] using hm
  rcases List.mem_append.mp hc with hk | hbe
  · have hlow : c.toLower ∈ keyword.map Char.toLower := by
      rw [← map_toLower_keyword h.word]
      exact List.mem_map_of_mem hk
    revert hlow
    rcases hcases with rfl | rfl | rfl | rfl <;> decide
  rcases List.mem_append.mp hbe with hb | he
  · have hblank := h.blanks c hb
    revert hblank
    rcases hcases with rfl | rfl | rfl | rfl <;> decide
  · have hup := toUpper_of_mem_direction h.direction he
    revert hup
    rcases hcases with rfl | rfl | rfl | rfl <;> decide

/-- What stands behind the end of a text is in no header that starts in it. -/
theorem prefix_append_iff {h a y : List Char} (hy : ∀ z, h = a ++ z → z <+: y → z = []) :
    h <+: a ++ y ↔ h <+: a := by
  constructor
  · rintro ⟨r, hr⟩
    rcases List.append_eq_append_iff.mp hr with ⟨x, hx, -⟩ | ⟨z, hz, hrest⟩
    · exact ⟨x, hx.symm⟩
    · have hnil := hy z hz ⟨r, hrest.symm⟩
      have heq : h = a := by rw [hz, hnil, List.append_nil]
      exact heq ▸ List.prefix_refl a
  · exact fun hpre => hpre.trans (List.prefix_append a y)

/-- A mark ends what a header may hold. -/
theorem headerHere?_append_mark {m : Char} (hm : isMark m = true) (a y : List Char) :
    headerHere? (a ++ m :: y) = headerHere? a := by
  apply headerHere?_congr
  intro k b e d hhead
  apply prefix_append_iff
  intro z hz hpre
  cases z with
  | nil => rfl
  | cons c z =>
    obtain ⟨rfl, -⟩ := List.cons_prefix_cons.mp hpre
    have hmem : c ∈ k ++ (b ++ e) := by rw [hz]; simp
    rw [hhead.not_isMark hmem] at hm
    exact absurd hm (by simp)

/-- A header ends with a letter, so blanks behind a text do not matter. -/
theorem headerHere?_append_blanks {y : List Char} (hy : Text.Blanks y) (a : List Char) :
    headerHere? (a ++ y) = headerHere? a := by
  apply headerHere?_congr
  intro k b e d hhead
  apply prefix_append_iff
  intro z hz hpre
  cases hlast : z.getLast? with
  | none => exact List.getLast?_eq_none_iff.mp hlast
  | some c =>
    have hne : e ≠ [] := by
      rintro rfl
      exact absurd (length_direction hhead.direction) (by decide)
    have hend : (k ++ (b ++ e)).getLast? = some c := by
      rw [hz, List.getLast?_append, hlast, Option.some_or]
    have hmem : c ∈ e := by
      rw [List.getLast?_append, List.getLast?_append, List.getLast?_eq_some_getLast hne] at hend
      rw [← Option.some.inj hend]
      exact List.getLast_mem hne
    have hblank := hy c (hpre.subset (List.mem_of_getLast? hlast))
    rw [not_isBlank_of_mem_direction hhead.direction hmem] at hblank
    exact absurd hblank (by simp)

/-- Where no header starts, the next place decides. -/
theorem headerDirection?_skip {c : Char} {cs : List Char} (h : headerHere? (c :: cs) = none) :
    headerDirection? (c :: cs) = headerDirection? cs := by
  rw [headerDirection?, firstAnywhere?, h]
  rfl

theorem headerDirection?_cons (c : Char) (cs : List Char) :
    headerDirection? (c :: cs) = (headerHere? (c :: cs)).or (headerDirection? cs) := by
  rw [headerDirection?, firstAnywhere?]
  cases headerHere? (c :: cs) <;> rfl

theorem headerHere?_mark {m : Char} (hm : isMark m = true) (cs : List Char) :
    headerHere? (m :: cs) = none :=
  headerHere?_append_mark hm [] cs

/-- The texts on both sides of a mark are looked through one after the other. -/
theorem headerDirection?_append_mark {m : Char} (hm : isMark m = true) (a y : List Char) :
    headerDirection? (a ++ m :: y) = (headerDirection? a).or (headerDirection? y) := by
  induction a with
  | nil => exact headerDirection?_skip (headerHere?_mark hm y)
  | cons c a ih =>
    rw [List.cons_append, headerDirection?_cons, headerDirection?_cons, ih, ← List.cons_append,
      headerHere?_append_mark hm, Option.or_assoc]

/-- No header starts with a blank. -/
theorem headerDirection?_blanks_append {b : List Char} (hb : Text.Blanks b) (cs : List Char) :
    headerDirection? (b ++ cs) = headerDirection? cs := by
  induction b with
  | nil => rfl
  | cons c b ih =>
    have hnone : headerHere? (c :: (b ++ cs)) = none := by
      apply headerHere?_eq_none
      intro k b' e d hhead hpre
      obtain ⟨c', k', rfl⟩ := hhead.exists_cons
      obtain ⟨rfl, -⟩ := List.cons_prefix_cons.mp hpre
      have hblank := hb c' List.mem_cons_self
      rw [not_isBlank_of_mem_keyword hhead.word List.mem_cons_self] at hblank
      exact absurd hblank (by simp)
    have hrest := ih fun x hx => hb x (List.mem_cons_of_mem c hx)
    rw [List.cons_append, headerDirection?_skip hnone, hrest]

theorem headerDirection?_append_blanks {y : List Char} (hy : Text.Blanks y) (a : List Char) :
    headerDirection? (a ++ y) = headerDirection? a := by
  induction a with
  | nil =>
    have hdrop := headerDirection?_blanks_append hy []
    rwa [List.append_nil] at hdrop
  | cons c a ih =>
    rw [List.cons_append, headerDirection?_cons, headerDirection?_cons, ih, ← List.cons_append,
      headerHere?_append_blanks hy]

/-- Trimming moves no header. -/
theorem headerDirection?_trim (cs : List Char) :
    headerDirection? (Text.trim cs) = headerDirection? cs := by
  obtain ⟨lead, trail, hlead, htrail, heq⟩ := Text.exists_pad cs
  conv_rhs => rw [heq]
  rw [headerDirection?_blanks_append hlead, headerDirection?_append_blanks htrail]

/-- A text without the keyword, and a space behind it, hold no header. -/
theorem headerDirection?_append_label {icon : List Char} (h : holdsKeyword icon = false)
    (label : List Char) : headerDirection? (icon ++ ' ' :: label) = headerDirection? label := by
  induction icon with
  | nil =>
    exact headerDirection?_blanks_append Text.blanks_space label
  | cons c icon ih =>
    rw [holdsKeyword, List.tails_cons, List.any_cons, Bool.or_eq_false_iff] at h
    have hnone : headerHere? (c :: icon ++ ' ' :: label) = none := by
      apply headerHere?_eq_none
      rintro k b e d hhead ⟨r, hr⟩
      rw [List.append_assoc] at hr
      rcases List.append_eq_append_iff.mp hr with ⟨x, hx, -⟩ | ⟨z, hz, hrest⟩
      · have htake : (c :: icon).take keyword.length = k := by
          rw [hx]
          exact List.take_left' (length_keyword hhead.word)
        rw [htake, hhead.word] at h
        exact absurd h.1 (by simp)
      · cases z with
        | nil =>
          have htake : (c :: icon).take keyword.length = k := by
            rw [List.append_nil] at hz
            rw [← hz, ← length_keyword hhead.word, List.take_length]
          rw [htake, hhead.word] at h
          exact absurd h.1 (by simp)
        | cons x z =>
          obtain ⟨rfl, -⟩ := List.cons.inj hrest
          have hmem : ' ' ∈ k := by rw [hz]; simp
          have hblank := not_isBlank_of_mem_keyword hhead.word hmem
          exact absurd hblank (by decide)
    rw [List.cons_append] at hnone ⊢
    rw [headerDirection?_skip hnone, ih h.2]

/-- Other contents of groups give the same direction when each gives the same one
by itself. -/
theorem headerDirection?_regrouped {P : List Char → List Char → Prop}
    (hP : ∀ a a', P a a' → headerDirection? a' = headerDirection? a) {s t : List Char}
    (h : Regrouped P s t) : headerDirection? t = headerDirection? s := by
  induction h with
  | nil => rfl
  | @char c s t h ih =>
    have hhere : headerHere? (c :: t) = headerHere? (c :: s) := by
      apply headerHere?_congr
      intro k b e d hhead
      have hopen : '[' ∉ k ++ (b ++ e) := by
        intro hmem
        exact absurd (hhead.not_isMark hmem) (by decide)
      constructor
      · rintro ⟨r, hr⟩
        have hre := (h.char c).symm
        rw [← hr] at hre
        obtain ⟨r', heq, -⟩ := hre.split_of_not_mem hopen
        exact ⟨r', heq.symm⟩
      · rintro ⟨r, hr⟩
        have hre := h.char c
        rw [← hr] at hre
        obtain ⟨r', heq, -⟩ := hre.split_of_not_mem hopen
        exact ⟨r', heq.symm⟩
    rw [headerDirection?_cons, headerDirection?_cons, hhere, ih]
  | @group a a' s t _ _ hp h ih =>
    have hopen : ∀ x y : List Char, headerDirection? ('[' :: (x ++ ']' :: y)) =
        (headerDirection? x).or (headerDirection? y) := by
      intro x y
      rw [headerDirection?_skip (headerHere?_mark (by decide) _),
        headerDirection?_append_mark (by decide)]
    rw [hopen, hopen, hP a a' hp, ih]

end FlowchartSlides.Flowchart

namespace FlowchartSlides.IconMap

open Flowchart

/-- An icon without the keyword moves no header of the content that it goes into. -/
theorem headerDirection?_withIcon {icon : List Char} (h : holdsKeyword icon = false)
    (a : List Char) : headerDirection? (withIcon icon a) = headerDirection? a := by
  have hinner : headerDirection? (icon ++ ' ' :: Text.trim (Quoting.ofContent a).inner) =
      headerDirection? (Quoting.ofContent a).inner := by
    rw [headerDirection?_append_label h, headerDirection?_trim]
  have heq := Quoting.ofContent_eq a
  rcases quote_ofContent a with hq | ⟨q, hisq, hq⟩
  · rw [hq, List.nil_append, List.append_nil] at heq
    rw [heq] at hinner
    simpa [withIcon, hq, heq] using hinner
  · have hmark : isMark q = true := by rw [isMark, hisq, Bool.or_true]
    have hquoted : ∀ x : List Char, headerDirection? (q :: (x ++ [q])) = headerDirection? x := by
      intro x
      rw [headerDirection?_skip (headerHere?_mark hmark _), headerDirection?_append_mark hmark]
      exact Option.or_none
    have hform : withIcon icon a =
        q :: ((icon ++ ' ' :: Text.trim (Quoting.ofContent a).inner) ++ [q]) := by
      simp [withIcon, hq]
    rw [hq] at heq
    rw [hform, hquoted, hinner, ← hquoted]
    exact congrArg headerDirection? heq

variable {icons : IconMap}

theorem headerDirection?_decorateAll (h : icons.Mergeable)
    (hkey : ∀ icon ∈ icons.present, holdsKeyword icon.toList = false) (line : List Char) :
    headerDirection? (decorateAll icons.iconOf? false [] line) = headerDirection? line := by
  refine headerDirection?_regrouped ?_ (regrouped_decorateAll h.plain_iconOf? false [] line)
  rintro a a' ⟨w, icon, hic, rfl⟩
  have hfree := hkey _ (mem_present_of_iconOf? hic)
  rw [String.toList_ofList] at hfree
  exact headerDirection?_withIcon hfree a

/-- A decorated text has the direction of the text before. -/
theorem direction?_decorateAll (h : icons.Mergeable)
    (hkey : ∀ icon ∈ icons.present, holdsKeyword icon.toList = false) {cs : List Char}
    (hone : OneLine icons.iconOf? cs) :
    direction? (decorateAll icons.iconOf? false [] cs) = direction? cs := by
  have hblank : ((!Text.allBlank ·) ∘ decorateAll icons.iconOf? false []) =
      (!Text.allBlank ·) := by
    funext line
    have hre := regrouped_decorateAll h.plain_iconOf? false [] (Text.trim line)
    have hempty := hre.eq_nil_iff
    rw [Function.comp_apply, Text.allBlank_eq_isEmpty_trim, Text.allBlank_eq_isEmpty_trim,
      trim_decorateAll h.plain_iconOf?]
    congr 1
    rw [Bool.eq_iff_iff, List.isEmpty_iff, List.isEmpty_iff, hempty]
  rw [direction?, firstLine?, lines_decorateAll h.oneLine_iconOf? h.plain_iconOf? hone,
    List.find?_map, hblank, direction?, firstLine?]
  cases (Text.lines cs).find? (!Text.allBlank ·) with
  | none => rfl
  | some line => exact headerDirection?_decorateAll h hkey line

end FlowchartSlides.IconMap
