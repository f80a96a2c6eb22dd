import FlowchartSlides.Proofs.Regrouped
import Mathlib.Data.List.Induction
import Mathlib.Logic.Function.Basic

/-!
# All icons at once

The merger runs over the text once for each id. `decorateAll` runs over it once
for all ids and looks up the icon of each definition it meets;
`mergeInto_eq_decorateAll` says that the texts are the same. A definition that
follows one of the same id without a character in between stays as it is.
-/
namespace FlowchartSlides.IconMap

open Flowchart

/-- The icon that is due to the definition at the start of a text, and the parts
of that definition. `inside` says whether a word goes on here, and `last` is the
id of a definition decorated just before. -/
def due? (icon? : List Char → Option (List Char)) (inside : Bool) (last cs : List Char) :
    Option (List Char × List Char × List Char × List Char) :=
  let w := leadingWord cs
  if inside || w == last || w.isEmpty then none
  else (icon? w).bind fun icon => (definition? w cs).map (icon, ·)

theorem due?_eq_some_iff {icon? : List Char → Option (List Char)} {inside : Bool}
    {last cs icon lead a r : List Char} :
    due? icon? inside last cs = some (icon, lead, a, r) ↔
      inside = false ∧ ∃ w b, Defines w b a ∧ w ≠ last ∧ icon? w = some icon ∧
        lead = w ++ b ∧ cs = written w b a r := by
  have hword : leadingWord cs ≠ [] → IsWord (leadingWord cs) :=
    fun h => ⟨h, fun c hc => List.mem_takeWhile_imp hc⟩
  constructor
  · intro h
    simp only [due?] at h
    split at h
    next => simp at h
    next hg =>
      simp only [Bool.or_eq_true, beq_iff_eq, List.isEmpty_iff, not_or, Bool.not_eq_true] at hg
      obtain ⟨ic, hic, h⟩ := Option.bind_eq_some_iff.mp h
      obtain ⟨⟨l, a', r'⟩, hd, h⟩ := Option.map_eq_some_iff.mp h
      obtain ⟨rfl, rfl, rfl, rfl⟩ := by simpa using h
      obtain ⟨b, hdef, hlead, hcs⟩ := (definition?_eq_some_iff (hword hg.2)).mp hd
      exact ⟨hg.1.1, _, b, hdef, hg.1.2, hic, hlead, hcs⟩
  · rintro ⟨rfl, w, b, hdef, hne, hic, rfl, rfl⟩
    have hd := (definition?_eq_some_iff hdef.word).mpr ⟨b, hdef, rfl, (rfl : written w b a r = _)⟩
    have hempty : w.isEmpty = false := by simpa using hdef.word.ne_nil
    simp only [due?, hdef.leadingWord, hic, hd, hempty, Bool.false_or, Bool.or_false, beq_iff_eq,
      if_neg hne, Option.bind_some, Option.map_some]

/-- Nothing is due exactly where no definition of an id with an icon may be
decorated. -/
theorem due?_eq_none_iff {icon? : List Char → Option (List Char)} {inside : Bool}
    {last cs : List Char} :
    due? icon? inside last cs = none ↔
      ∀ w b a r, Defines w b a → cs = written w b a r → inside = false → w ≠ last →
        icon? w = none := by
  constructor
  · intro h w b a r hdef hcs hin hne
    cases hic : icon? w with
    | none => rfl
    | some icon =>
      rw [due?_eq_some_iff.mpr ⟨hin, w, b, hdef, hne, hic, rfl, hcs⟩] at h
      exact absurd h (by simp)
  · intro h
    cases hd : due? icon? inside last cs with
    | none => rfl
    | some d =>
      obtain ⟨icon, lead, a, r⟩ := d
      obtain ⟨hin, w, b, hdef, hne, hic, -, hcs⟩ := due?_eq_some_iff.mp hd
      rw [h w b a r hdef hcs hin hne] at hic
      exact absurd hic (by simp)

theorem length_written (w b a r : List Char) : r.length < (written w b a r).length := by
  simp only [written, List.length_append, List.length_cons]
  omega

/-- Decorates every definition that is due an icon, from left to right. -/
def decorateAll (icon? : List Char → Option (List Char)) (inside : Bool) (last cs : List Char) :
    List Char :=
  match _here : due? icon? inside last cs with
  | some (icon, lead, content, rest) =>
    lead ++ '[' :: withIcon icon content ++ ']' :: decorateAll icon? false (leadingWord cs) rest
  | none =>
    match cs with
    | [] => []
    | c :: rest => c :: decorateAll icon? (isIdChar c) [] rest
termination_by cs.length
decreasing_by
  · obtain ⟨-, w, b, -, -, -, -, hcs⟩ := due?_eq_some_iff.mp _here
    rw [hcs]
    exact length_written w b _ _
  · simp

variable {icon? : List Char → Option (List Char)}

@[simp] theorem decorateAll_nil (inside : Bool) (last : List Char) :
    decorateAll icon? inside last [] = [] := by
  have hnone : due? icon? inside last [] = none := by simp [due?, leadingWord]
  rw [decorateAll]
  split
  next h => rw [hnone] at h; simp at h
  next => rfl

theorem decorateAll_keep {inside : Bool} {last : List Char} {c : Char} {s : List Char}
    (h : due? icon? inside last (c :: s) = none) :
    decorateAll icon? inside last (c :: s) = c :: decorateAll icon? (isIdChar c) [] s := by
  rw [decorateAll]
  split
  next hd => rw [h] at hd; simp at hd
  next => rfl

theorem decorateAll_draw {last w b a icon : List Char} (hdef : Defines w b a) (hne : w ≠ last)
    (hic : icon? w = some icon) (r : List Char) :
    decorateAll icon? false last (written w b a r) =
      written w b (withIcon icon a) (decorateAll icon? false w r) := by
  have hd := due?_eq_some_iff.mpr ⟨rfl, w, b, hdef, hne, hic, rfl, (rfl : written w b a r = _)⟩
  rw [decorateAll]
  split
  next h =>
    rw [hd] at h
    obtain ⟨rfl, rfl, rfl, rfl⟩ := by simpa using h
    rw [hdef.leadingWord]
    simp [written]
  next h => rw [hd] at h; simp at h

/-- Induction along the run of `decorateAll`: over a decorated definition, and
over one character where nothing is due. -/
theorem decorateAll_induction (icon? : List Char → Option (List Char))
    {motive : Bool → List Char → List Char → Prop}
    (nil : ∀ inside last, motive inside last [])
    (draw : ∀ last w b a r icon, Defines w b a → w ≠ last → icon? w = some icon →
      motive false w r → motive false last (written w b a r))
    (keep : ∀ inside last c s, due? icon? inside last (c :: s) = none →
      motive (isIdChar c) [] s → motive inside last (c :: s))
    (inside : Bool) (last cs : List Char) : motive inside last cs := by
  induction hn : cs.length using Nat.strong_induction_on generalizing inside last cs with
  | _ n ih =>
    cases hd : due? icon? inside last cs with
    | some d =>
      obtain ⟨icon, lead, a, r⟩ := d
      obtain ⟨rfl, w, b, hdef, hne, hic, -, rfl⟩ := due?_eq_some_iff.mp hd
      exact draw last w b a r icon hdef hne hic (ih _ (hn ▸ length_written w b a r) _ _ r rfl)
    | none =>
      cases cs with
      | nil => exact nil inside last
      | cons c s =>
        exact keep inside last c s hd (ih _ (hn ▸ Nat.lt_succ_self s.length) _ _ s rfl)

theorem due?_inside (last cs : List Char) : due? icon? true last cs = none := by
  simp [due?]

theorem due?_of_not_isIdChar {c : Char} (hc : isIdChar c = false) (inside : Bool)
    (last s : List Char) : due? icon? inside last (c :: s) = none := by
  have hw : leadingWord (c :: s) = [] := by
    rw [leadingWord, List.takeWhile_cons_of_neg (by simp [hc])]
  simp [due?, hw]

/-- Where the next bracket closes, nothing is due. -/
theorem due?_of_close {a : List Char} (ha : ∀ c ∈ a, isBracket c = false) (inside : Bool)
    (last s : List Char) : due? icon? inside last (a ++ ']' :: s) = none := by
  rw [due?_eq_none_iff]
  intro w b a' r hdef heq _ _
  have hdrop : (a ++ ']' :: s).dropWhile (!isBracket ·) = ']' :: s :=
    dropWhile_append_stop (fun c hc => by rw [ha c hc]; rfl) (by decide) s
  rw [heq, hdef.dropWhile_plain] at hdrop
  exact absurd (List.cons.inj hdrop).1 (by decide)

/-- The rest of a word is passed over. -/
theorem decorateAll_word {w : List Char} (hw : ∀ c ∈ w, isIdChar c = true) (s : List Char) :
    decorateAll icon? true [] (w ++ s) = w ++ decorateAll icon? true [] s := by
  induction w with
  | nil => rfl
  | cons c w ih =>
    rw [List.cons_append, decorateAll_keep (due?_inside _ _), hw c List.mem_cons_self,
      ih fun d hd => hw d (List.mem_cons_of_mem c hd)]
    rfl

/-- Characters of no word are passed over. -/
theorem decorateAll_gap {b : List Char} (hb : ∀ c ∈ b, isIdChar c = false) {d : Char}
    (hd : isIdChar d = false) (inside : Bool) (last s : List Char) :
    decorateAll icon? inside last (b ++ d :: s) = b ++ d :: decorateAll icon? false [] s := by
  induction b generalizing inside last with
  | nil => rw [List.nil_append, decorateAll_keep (due?_of_not_isIdChar hd _ _ _), hd]; rfl
  | cons c b ih =>
    have hc := hb c List.mem_cons_self
    rw [List.cons_append, decorateAll_keep (due?_of_not_isIdChar hc _ _ _),
      ih (fun e he => hb e (List.mem_cons_of_mem c he))]
    rfl

/-- What a bracket closes is passed over. -/
theorem decorateAll_close {a : List Char} (ha : ∀ c ∈ a, isBracket c = false) (inside : Bool)
    (last s : List Char) :
    decorateAll icon? inside last (a ++ ']' :: s) = a ++ ']' :: decorateAll icon? false [] s := by
  induction a generalizing inside last with
  | nil =>
    rw [List.nil_append, decorateAll_keep (due?_of_close (a := []) (by simp) _ _ _), isIdChar_close]
    rfl
  | cons c a ih =>
    have hnone : due? icon? inside last (c :: a ++ ']' :: s) = none :=
      due?_of_close ha inside last s
    rw [List.cons_append] at hnone
    rw [List.cons_append, decorateAll_keep hnone,
      ih (fun d hd => ha d (List.mem_cons_of_mem c hd))]
    rfl

/-- A definition without icon, or after one of the same id, is passed over as a
whole. -/
theorem decorateAll_pass {w b a last : List Char} (hdef : Defines w b a)
    (h : w = last ∨ icon? w = none) (inside : Bool) (r : List Char) :
    decorateAll icon? inside last (written w b a r) =
      written w b a (decorateAll icon? false [] r) := by
  obtain ⟨c, w', rfl, hc, hw'⟩ := hdef.word.exists_cons
  have hnone : due? icon? inside last (written (c :: w') b a r) = none := by
    rw [due?_eq_none_iff]
    intro w b' a' r' hdef' heq _ hne
    obtain ⟨rfl, -, -, -⟩ := hdef.unique hdef' heq
    exact h.resolve_left hne
  have hgap : ∀ d ∈ b, isIdChar d = false := fun d hd => not_isIdChar_of_isBlank (hdef.blanks d hd)
  rw [written, List.cons_append] at hnone ⊢
  rw [decorateAll_keep hnone, hc, decorateAll_word hw', decorateAll_gap hgap isIdChar_open,
    decorateAll_close hdef.content.plain]
  rfl

theorem withIcon_isContent {icon a : List Char} (hicon : ∀ c ∈ icon, isBracket c = false)
    (ha : IsContent a) : IsContent (withIcon icon a) := by
  have hq := Quoting.ofContent_eq a
  have hquote : ∀ c ∈ (Quoting.ofContent a).quote, isBracket c = false := by
    intro c hc
    apply ha.plain
    rw [← hq]
    exact List.mem_append_right _ hc
  have htrim : ∀ c ∈ Text.trim (Quoting.ofContent a).inner, isBracket c = false := by
    intro c hc
    apply ha.plain
    rw [← hq]
    refine List.mem_append_left _ (List.mem_append_right _ ?_)
    rw [Text.trim, Text.trimEnd, List.mem_reverse] at hc
    exact (List.dropWhile_sublist _).mem (List.mem_reverse.mp ((List.dropWhile_sublist _).mem hc))
  constructor
  · simp [withIcon]
  · intro c hc
    simp only [withIcon, List.mem_append, List.mem_cons] at hc
    rcases hc with ((hc | hc) | hc | hc) | hc
    · exact hquote c hc
    · exact hicon c hc
    · rw [hc]; decide
    · exact htrim c hc
    · exact hquote c hc

/-- Decorating changes nothing but contents of groups. -/
theorem regrouped_decorateAll
    (hicon : ∀ w icon, icon? w = some icon → ∀ c ∈ icon, isBracket c = false)
    (inside : Bool) (last cs : List Char) :
    Regrouped (fun a a' => ∃ w icon, icon? w = some icon ∧ a' = withIcon icon a) cs
      (decorateAll icon? inside last cs) := by
  induction inside, last, cs using decorateAll_induction icon? with
  | nil => rw [decorateAll_nil]; exact .nil
  | draw last w b a r icon hdef hne hic ih =>
    have ha' := withIcon_isContent (hicon w icon hic) hdef.content
    rw [decorateAll_draw hdef hne hic]
    exact .definition hdef ha' ⟨w, icon, hic, rfl⟩ ih
  | keep inside last c s hnone ih =>
    rw [decorateAll_keep hnone]
    exact ih.char c

/-- One more id: its own pass over the decorated text does what looking its icon
up in the one pass does. -/
theorem decorateAll_decorateAll {id icon : List Char} (hid : IsWord id) (hfree : icon? id = none)
    (hicon : ∀ w icon, icon? w = some icon → ∀ c ∈ icon, isBracket c = false)
    (inside : Bool) (last cs : List Char) :
    decorateAll (Function.update (fun _ => none) id (some icon)) inside
        (if last = id then id else [])
        (decorateAll icon? inside (if last = id then [] else last) cs) =
      decorateAll (Function.update icon? id (some icon)) inside last cs := by
  induction inside, last, cs using
    decorateAll_induction (Function.update icon? id (some icon)) with
  | nil => simp
  | draw last w b a r ic hdef hne hic ih =>
    rw [decorateAll_draw hdef hne hic]
    by_cases hw : w = id
    · subst hw
      obtain rfl : icon = ic := by simpa using hic
      rw [if_neg hne.symm, if_neg hne.symm, decorateAll_pass hdef (Or.inr hfree),
        decorateAll_draw hdef hdef.word.ne_nil (Function.update_self _ _ _), ← ih, if_pos rfl,
        if_pos rfl]
    · rw [Function.update_of_ne hw] at hic
      have hne' : w ≠ if last = id then [] else last := by
        split
        · exact hdef.word.ne_nil
        · exact hne
      have ha' := withIcon_isContent (hicon w ic hic) hdef.content
      rw [decorateAll_draw hdef hne' hic,
        decorateAll_pass ⟨hdef.word, hdef.blanks, ha'⟩ (Or.inr (Function.update_of_ne hw _ _)),
        ← ih, if_neg hw, if_neg hw]
  | keep inside last c s hnone ih =>
    rw [due?_eq_none_iff] at hnone
    have hinner : due? icon? inside (if last = id then [] else last) (c :: s) = none := by
      rw [due?_eq_none_iff]
      intro w b a r hdef heq hin hne
      by_cases hw : w = id
      · rw [hw, hfree]
      · by_cases hl : w = last
        · rw [if_neg (hl ▸ hw)] at hne
          exact absurd hl hne
        · rw [← hnone w b a r hdef heq hin hl, Function.update_of_ne hw]
    rw [decorateAll_keep (due?_eq_none_iff.mpr hnone), decorateAll_keep hinner]
    have houter : due? (Function.update (fun _ => none) id (some icon)) inside
        (if last = id then id else []) (c :: decorateAll icon? (isIdChar c) [] s) = none := by
      rw [due?_eq_none_iff]
      intro w b a r hdef heq hin hne
      by_cases hw : w = id
      · -- the same word starts a definition in the text before the passes
        subst hw
        have hlast : w ≠ last := fun hl => hne (by rw [if_pos hl.symm])
        have hre := ((regrouped_decorateAll hicon (isIdChar c) [] s).char c).symm
        rw [heq] at hre
        obtain ⟨a', r', hdef', -, hcs, -⟩ := hre.of_written hdef
        have hno := hnone w b a' r' hdef' hcs hin hlast
        rw [Function.update_self] at hno
        exact absurd hno (by simp)
      · exact Function.update_of_ne hw _ _
    rw [decorateAll_keep houter, ← ih]
    simp [hid.ne_nil.symm]

/-- Without icons nothing changes. -/
theorem decorateAll_none (inside : Bool) (last cs : List Char) :
    decorateAll (fun _ => none) inside last cs = cs := by
  induction inside, last, cs using decorateAll_induction (fun _ => none) with
  | nil => simp
  | draw last w b a r icon hdef hne hic ih => simp at hic
  | keep inside last c s hnone ih => rw [decorateAll_keep hnone, ih]

section Passes

variable {id icon : List Char} {atStart : Bool} {c : Char} {s lead a r : List Char}

theorem mergeOne_here {cs : List Char} (h : definition? id cs = some (lead, a, r)) :
    mergeOne id icon true cs =
      lead ++ '[' :: withIcon icon a ++ ']' :: mergeOne id icon false r := by
  rw [mergeOne]
  split
  next heq =>
    simp only [if_true, h, Option.some.injEq, Prod.mk.injEq] at heq
    obtain ⟨rfl, rfl, rfl⟩ := heq
    rfl
  next heq => simp [h] at heq

theorem mergeOne_nil (hnone : atStart = true → definition? id [] = none) :
    mergeOne id icon atStart [] = [] := by
  rw [mergeOne]
  split
  next heq =>
    split at heq
    next hs => rw [hnone hs] at heq; simp at heq
    next => simp at heq
  next => rfl

theorem mergeOne_after (hnone : atStart = true → definition? id (c :: s) = none)
    (hc : isIdChar c = false) (h : definition? id s = some (lead, a, r)) :
    mergeOne id icon atStart (c :: s) =
      c :: (lead ++ '[' :: withIcon icon a ++ ']' :: mergeOne id icon false r) := by
  rw [mergeOne]
  split
  next heq =>
    split at heq
    next hs => rw [hnone hs] at heq; simp at heq
    next => simp at heq
  next =>
    simp only
    split
    next heq =>
      simp only [hc, Bool.false_eq_true, if_false, h, Option.some.injEq, Prod.mk.injEq] at heq
      obtain ⟨rfl, rfl, rfl⟩ := heq
      simp
    next heq => simp [hc, h] at heq

theorem mergeOne_keep (hnone : atStart = true → definition? id (c :: s) = none)
    (h : isIdChar c = false → definition? id s = none) :
    mergeOne id icon atStart (c :: s) = c :: mergeOne id icon (c == '\n') s := by
  rw [mergeOne]
  split
  next heq =>
    split at heq
    next hs => rw [hnone hs] at heq; simp at heq
    next => simp at heq
  next =>
    simp only
    split
    next heq =>
      split at heq
      next => simp at heq
      next hc => rw [h (by simpa using hc)] at heq; simp at heq
    next => rfl

end Passes

/-- The pass for one id looks up that id alone. `atStart` is the leave to begin
right here; where it is not given, a definition has been looked for before. -/
theorem mergeOne_eq_decorateAll {id : List Char} (hid : IsWord id) (icon : List Char)
    (atStart inside : Bool) (last cs : List Char)
    (hstart : atStart = true → inside = false ∧ last ≠ id)
    (hrest : atStart = false → inside = false → last ≠ id → definition? id cs = none) :
    mergeOne id icon atStart cs =
      decorateAll (Function.update (fun _ => none) id (some icon)) inside last cs := by
  induction hn : cs.length using Nat.strong_induction_on
    generalizing atStart inside last cs with
  | _ n ih =>
    by_cases hhere : atStart = true ∧ definition? id cs ≠ none
    · obtain ⟨rfl, hsome⟩ := hhere
      obtain ⟨⟨lead, a, r⟩, hd⟩ := Option.ne_none_iff_exists'.mp hsome
      obtain ⟨rfl, hne⟩ := hstart rfl
      obtain ⟨b, hdef, rfl, rfl⟩ := (definition?_eq_some_iff hid).mp hd
      rw [mergeOne_here hd, decorateAll_draw hdef hne.symm (Function.update_self _ _ _),
        ih _ (hn ▸ length_written id b a r) false false id r (by simp) (by simp) rfl]
      simp [written]
    have hnone : atStart = true → definition? id cs = none := by
      intro hs
      by_contra hd
      exact hhere ⟨hs, hd⟩
    cases cs with
    | nil => rw [mergeOne_nil hnone, decorateAll_nil]
    | cons c s =>
      have hkeep : due? (Function.update (fun _ => none) id (some icon)) inside last (c :: s) =
          none := by
        rw [due?_eq_none_iff]
        intro w b a r hdef heq hin hne
        by_cases hw : w = id
        · -- the word would have been found, here or before
          subst hw
          have hd := (definition?_eq_some_iff hid).mpr ⟨b, hdef, rfl, heq⟩
          cases hs : atStart with
          | true => rw [hnone hs] at hd; simp at hd
          | false => rw [hrest hs hin hne.symm] at hd; simp at hd
        · exact Function.update_of_ne hw _ _
      rw [decorateAll_keep hkeep]
      by_cases hnext : isIdChar c = false ∧ definition? id s ≠ none
      · obtain ⟨hc, hsome⟩ := hnext
        obtain ⟨⟨lead, a, r⟩, hd⟩ := Option.ne_none_iff_exists'.mp hsome
        obtain ⟨b, hdef, rfl, rfl⟩ := (definition?_eq_some_iff hid).mp hd
        have hlen : r.length < n := by
          have h := length_written id b a r
          rw [← hn, List.length_cons]
          omega
        rw [mergeOne_after hnone hc hd, hc,
          decorateAll_draw hdef hid.ne_nil (Function.update_self _ _ _),
          ih _ hlen false false id r (by simp) (by simp) rfl]
        simp [written]
      · have hnext' : isIdChar c = false → definition? id s = none := by
          intro hc
          by_contra hd
          exact hnext ⟨hc, hd⟩
        rw [mergeOne_keep hnone hnext', ih _ (hn ▸ Nat.lt_succ_self s.length) _ (isIdChar c) [] s
          ?_ (fun _ hc _ => hnext' hc) rfl]
        intro hfeed
        rw [beq_iff_eq] at hfeed
        exact ⟨by rw [hfeed]; decide, hid.ne_nil.symm⟩

/-- The icon of an id, both as characters. -/
def iconOf? (icons : IconMap) (w : List Char) : Option (List Char) :=
  (icons.icon? (String.ofList w)).map String.toList

/-- The icons of the ids in a list alone. -/
def iconAmong? (icons : IconMap) (ids : List String) (w : List Char) : Option (List Char) :=
  if String.ofList w ∈ ids then icons.iconOf? w else none

theorem iconAmong?_concat {icons : IconMap} {id : String} {icon : String}
    (h : icons.icon? id = some icon) (ids : List String) :
    icons.iconAmong? (ids ++ [id]) =
      Function.update (icons.iconAmong? ids) id.toList (some icon.toList) := by
  funext w
  by_cases hw : w = id.toList
  · subst hw
    rw [Function.update_self]
    simp [iconAmong?, iconOf?, h]
  · have hne : String.ofList w ≠ id := by
      rintro rfl
      exact hw (by simp)
    rw [Function.update_of_ne hw]
    simp [iconAmong?, hne]

theorem iconAmong?_concat_none {icons : IconMap} {id : String} (h : icons.icon? id = none)
    (ids : List String) : icons.iconAmong? (ids ++ [id]) = icons.iconAmong? ids := by
  funext w
  by_cases hne : String.ofList w = id
  · simp [iconAmong?, iconOf?, hne, h]
  · simp [iconAmong?, hne]

theorem iconAmong?_eq_some {icons : IconMap} {ids : List String} {w icon : List Char}
    (h : icons.iconAmong? ids w = some icon) : icons.iconOf? w = some icon := by
  unfold iconAmong? at h
  split at h
  next => exact h
  next => simp at h

theorem iconAmong?_keys (icons : IconMap) : icons.iconAmong? icons.keys = icons.iconOf? := by
  funext w
  unfold iconAmong?
  split
  next => rfl
  next h => rw [iconOf?, icon?, Table.get?_eq_none h]; rfl

/-- The pass over a text for one id of the map. -/
def pass (icons : IconMap) (text : List Char) (id : String) : List Char :=
  match icons.icon? id with
  | none => text
  | some icon => mergeOne id.toList icon.toList true text

theorem mergeInto_eq_foldl (icons : IconMap) (source : String) :
    icons.mergeInto source = String.ofList (icons.keys.foldl icons.pass source.toList) := rfl

/-- The passes for all ids, one after the other, decorate every definition once,
with the icon of its id. -/
theorem mergeInto_eq_decorateAll {icons : IconMap} (hids : ∀ id ∈ icons.keys, IsWord id.toList)
    (hicons : ∀ w icon, icons.iconOf? w = some icon → ∀ c ∈ icon, isBracket c = false)
    (source : String) :
    icons.mergeInto source =
      String.ofList (decorateAll icons.iconOf? false [] source.toList) := by
  have hrun : ∀ ids : List String, ids ⊆ icons.keys → ids.Nodup →
      ids.foldl icons.pass source.toList =
        decorateAll (icons.iconAmong? ids) false [] source.toList := by
    intro ids
    induction ids using List.reverseRecOn with
    | nil =>
      intro _ _
      have hnone : icons.iconAmong? [] = fun _ => none := by funext w; simp [iconAmong?]
      rw [hnone, decorateAll_none]
      rfl
    | append_singleton ids id ih =>
      intro hsub hnd
      obtain ⟨hnd, -, hdisj⟩ := List.nodup_append.mp hnd
      have hid := hids id (hsub (by simp))
      rw [List.foldl_append, ih (fun _ h => hsub (List.mem_append_left _ h)) hnd, List.foldl_cons,
        List.foldl_nil]
      cases hic : icons.icon? id with
      | none => rw [pass, hic, iconAmong?_concat_none hic]
      | some icon =>
        have hfree : icons.iconAmong? ids id.toList = none := by
          have hnot : id ∉ ids := fun hin => hdisj id hin id (by simp) rfl
          simp [iconAmong?, hnot]
        have hic' : ∀ w ic, icons.iconAmong? ids w = some ic → ∀ c ∈ ic, isBracket c = false :=
          fun w ic h => hicons w ic (iconAmong?_eq_some h)
        have hcomp := @decorateAll_decorateAll _ _ icon.toList hid hfree hic' false [] source.toList
        rw [if_neg hid.ne_nil.symm, if_neg hid.ne_nil.symm] at hcomp
        rw [pass, hic, iconAmong?_concat hic, ← hcomp]
        exact mergeOne_eq_decorateAll hid _ _ _ _ _ (fun _ => ⟨rfl, hid.ne_nil.symm⟩) (by simp)
  rw [mergeInto_eq_foldl, ← iconAmong?_keys, ← hrun icons.keys (fun _ h => h) icons.nodup_keys]

end FlowchartSlides.IconMap
