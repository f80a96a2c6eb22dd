import FlowchartSlides.Flowchart.Reading
import FlowchartSlides.Proofs.DecoratedLines
import Mathlib.Data.List.Basic

/-!
# Statements of decorated lines

A decorated line makes the statement of the line before, by the same rule; a
definition of a mapped id has the icon before its label. The icon has to stay a
part of the label: it may hold no bracket and no line feed, and no quote may
stand at its start.
-/
namespace FlowchartSlides

open Flowchart

namespace IconMap

/-- The trimmed icons that are not blank. -/
def present (icons : IconMap) : List String := icons.values.filterMap present?

/-- What keeps definitions in their lines and icons in their labels. -/
structure Mergeable (icons : IconMap) : Prop where
  words : ∀ id ∈ icons.keys, IsWord id.toList
  plain : ∀ icon ∈ icons.present, ∀ c ∈ icon.toList, isBracket c = false
  oneLine : ∀ icon ∈ icons.present, '\n' ∉ icon.toList
  unquoted : ∀ icon ∈ icons.present, ∀ c ∈ icon.toList.head?, isQuote c = false

def mergeableIcon (icon : String) : Bool :=
  icon.toList.all (fun c => !isBracket c && c != '\n') && !icon.toList.head?.any isQuote

theorem mergeable_iff {icons : IconMap} :
    (∀ id ∈ icons.keys, IsWord id.toList) ∧
      (∀ icon ∈ icons.present, mergeableIcon icon = true) ↔ icons.Mergeable := by
  have hicon : ∀ icon : String, mergeableIcon icon = true ↔
      (∀ c ∈ icon.toList, isBracket c = false) ∧ '\n' ∉ icon.toList ∧
        ∀ c ∈ icon.toList.head?, isQuote c = false := by
    intro icon
    simp only [mergeableIcon, Bool.and_eq_true, List.all_eq_true, Bool.not_eq_true', bne_iff_ne,
      Option.any_eq_false, Option.mem_def]
    constructor
    · rintro ⟨hall, hhead⟩
      exact ⟨fun c hc => (hall c hc).1, fun hmem => (hall _ hmem).2 rfl, hhead⟩
    · rintro ⟨hplain, hline, hhead⟩
      exact ⟨fun c hc => ⟨hplain c hc, fun he => hline (he ▸ hc)⟩, hhead⟩
  constructor
  · rintro ⟨hwords, hall⟩
    exact ⟨hwords, fun ic h => ((hicon ic).mp (hall ic h)).1,
      fun ic h => ((hicon ic).mp (hall ic h)).2.1, fun ic h => ((hicon ic).mp (hall ic h)).2.2⟩
  · intro h
    exact ⟨h.words, fun ic hic =>
      (hicon ic).mpr ⟨h.plain ic hic, h.oneLine ic hic, h.unquoted ic hic⟩⟩

instance (icons : IconMap) : Decidable icons.Mergeable := decidable_of_iff _ mergeable_iff

end IconMap

namespace Table

variable {α : Type}

theorem mem_values_of_lookup {key : String} {v : α} {es : List (String × α)}
    (h : lookup key es = some v) : v ∈ es.map (·.2) := by
  induction es with
  | nil => simp [lookup] at h
  | cons e es ih =>
    rw [lookup] at h
    split at h
    next => rw [List.map_cons, Option.some.inj h]; exact List.mem_cons_self
    next => exact List.mem_cons_of_mem _ (ih h)

theorem mem_values_of_get? {t : Table α} {key : String} {v : α} (h : t.get? key = some v) :
    v ∈ t.values :=
  mem_values_of_lookup h

end Table

namespace IconMap

theorem mem_present {icons : IconMap} {id icon : String} (h : icons.icon? id = some icon) :
    icon ∈ icons.present := by
  obtain ⟨raw, hraw, hicon⟩ := Option.bind_eq_some_iff.mp h
  exact List.mem_filterMap.mpr ⟨raw, Table.mem_values_of_get? hraw, hicon⟩

theorem mem_present_of_iconOf? {icons : IconMap} {w icon : List Char}
    (h : icons.iconOf? w = some icon) : String.ofList icon ∈ icons.present := by
  obtain ⟨ic, hic, rfl⟩ := Option.map_eq_some_iff.mp h
  rw [String.ofList_toList]
  exact mem_present hic

theorem isTrimmed_of_present? {raw icon : String} (h : present? raw = some icon) :
    Text.IsTrimmed icon.toList ∧ icon ≠ "" := by
  rw [present?] at h
  split at h
  next => simp at h
  next hne =>
    obtain rfl := Option.some.inj h
    refine ⟨?_, by simpa using hne⟩
    rw [Text.trimmed, String.toList_ofList]
    exact Text.isTrimmed_trim _

theorem isTrimmed_of_icon? {icons : IconMap} {id icon : String} (h : icons.icon? id = some icon) :
    Text.IsTrimmed icon.toList ∧ icon ≠ "" := by
  obtain ⟨raw, -, hicon⟩ := Option.bind_eq_some_iff.mp h
  exact isTrimmed_of_present? hicon

theorem head?_append_of_ne_nil {cs : List Char} (h : cs ≠ []) (x : List Char) :
    (cs ++ x).head? = cs.head? := by
  cases cs with
  | nil => exact absurd rfl h
  | cons c cs => rfl

/-- An icon, a space and a trimmed text; without text the space goes too. -/
theorem trim_icon_label {icon label : List Char} (hicon : Text.IsTrimmed icon) (hne : icon ≠ [])
    (hlabel : Text.IsTrimmed label) :
    Text.trim (icon ++ ' ' :: label) = if label = [] then icon else icon ++ ' ' :: label := by
  by_cases h : label = []
  · rw [if_pos h, h, Text.blanks_space.trim_append, hicon.trim_eq]
  · have hend : (icon ++ ' ' :: label).getLast? = label.getLast? := by
      rw [List.getLast?_append, List.getLast?_cons, List.getLast?_eq_some_getLast h]
      rfl
    have hboth : Text.IsTrimmed (icon ++ ' ' :: label) := by
      refine ⟨?_, by rw [hend]; exact hlabel.last⟩
      rw [head?_append_of_ne_nil hne]
      exact hicon.head
    rw [if_neg h, hboth.trim_eq]

/-- Inside the quotes of a content, an icon before its trimmed label. -/
theorem ofContent_withIcon {icon : List Char} (hne : icon ≠ [])
    (hquote : ∀ c ∈ icon.head?, isQuote c = false) (a : List Char) :
    Quoting.ofContent (withIcon icon a) =
      ⟨(Quoting.ofContent a).quote, icon ++ ' ' :: Text.trim (Quoting.ofContent a).inner⟩ := by
  have hinner : icon ++ ' ' :: Text.trim (Quoting.ofContent a).inner ≠ [] := by simp
  rcases quote_ofContent a with hq | ⟨q, hisq, hq⟩
  · have hhead : ∀ c ∈ (icon ++ ' ' :: Text.trim (Quoting.ofContent a).inner).head?,
        isQuote c = false := by
      rw [head?_append_of_ne_nil hne]
      exact hquote
    have hform : withIcon icon a = icon ++ ' ' :: Text.trim (Quoting.ofContent a).inner := by
      simp [withIcon, hq]
    rw [hform, ofContent_of_not_isQuote hhead, hq]
  · have hform : withIcon icon a =
        q :: ((icon ++ ' ' :: Text.trim (Quoting.ofContent a).inner) ++ [q]) := by
      simp [withIcon, hq]
    rw [hform, ofContent_quoted hisq hinner, hq]

end IconMap

/-- The statement of a decorated line. -/
def Flowchart.Statement.withIcons (icons : IconMap) : Statement → Statement
  | .node id label => .node id (IconMap.decorate label (icons.icon? id))
  | .edge e => .edge e
  | .subgraph id => .subgraph id

namespace IconMap

variable {icons : IconMap}

theorem definedNode_withIcon (h : icons.Mergeable) {w icon : List Char}
    (hic : icons.iconOf? w = some icon) (a : List Char) :
    definedNode w (withIcon icon a) = (definedNode w a).withIcons icons := by
  obtain ⟨ic, hid, rfl⟩ := Option.map_eq_some_iff.mp hic
  obtain ⟨htrim, hempty⟩ := isTrimmed_of_icon? hid
  have hne : ic.toList ≠ [] := by simpa using hempty
  have hlabel := Text.isTrimmed_trim (Quoting.ofContent a).inner
  rw [definedNode, ofContent_withIcon hne (h.unquoted ic (mem_present hid)),
    trim_icon_label htrim hne hlabel]
  simp only [definedNode, Statement.withIcons, hid, decorate, Text.trimmed, String.toList_ofList,
    Text.trim_trim]
  split
  next hnil => simp [hnil]
  next hcons =>
    have hne' : (String.ofList (Text.trim (Quoting.ofContent a).inner)).isEmpty = false := by
      simpa using hcons
    rw [if_neg (by simp [hne'])]
    have htext : String.ofList (ic.toList ++ ' ' :: Text.trim (Quoting.ofContent a).inner) =
        ic ++ " " ++ String.ofList (Text.trim (Quoting.ofContent a).inner) := by
      apply String.toList_inj.mp
      simp
    rw [htext]

/-- A definition of an id without icon says the same with all icons. -/
theorem definedNode_without_icon {w : List Char} (hic : icons.iconOf? w = none) (a : List Char) :
    (definedNode w a).withIcons icons = definedNode w a := by
  have hid : icons.icon? (String.ofList w) = none := Option.map_eq_none_iff.mp hic
  simp [definedNode, Statement.withIcons, hid, decorate, Text.trimmed]

theorem Mergeable.plain_iconOf? (h : icons.Mergeable) (w icon : List Char)
    (hic : icons.iconOf? w = some icon) : ∀ c ∈ icon, isBracket c = false := by
  have hp := h.plain _ (mem_present_of_iconOf? hic)
  rwa [String.toList_ofList] at hp

theorem Mergeable.oneLine_iconOf? (h : icons.Mergeable) (w icon : List Char)
    (hic : icons.iconOf? w = some icon) : '\n' ∉ icon := by
  have hl := h.oneLine _ (mem_present_of_iconOf? hic)
  rwa [String.toList_ofList] at hl

/-- The first definition of a decorated line is the first one of the line before,
with its icon. -/
theorem firstAtWord?_decorateAll (h : icons.Mergeable) (inside : Bool) (t : List Char) :
    firstAtWord? definitionHere? inside (decorateAll icons.iconOf? inside [] t) =
      (firstAtWord? definitionHere? inside t).map (Statement.withIcons icons) := by
  generalize hlast : ([] : List Char) = last
  induction inside, last, t using decorateAll_induction icons.iconOf? with
  | nil => rw [decorateAll_nil]; rfl
  | draw last w b a r icon hdef hne hic ih =>
    have ha' := withIcon_isContent (h.plain_iconOf? w icon hic) hdef.content
    have hnew := (Defines.mk hdef.word hdef.blanks ha').firstAtWord?
      (decorateAll icons.iconOf? false w r)
    rw [decorateAll_draw hdef hne hic, hdef.firstAtWord?, hnew, Option.map_some,
      definedNode_withIcon h hic]
  | keep inside last c s hnone ih =>
    subst hlast
    have ih := ih rfl
    by_cases hc : isIdChar c = true
    · rw [hc] at ih
      have hkeep := decorateAll_keep hnone
      rw [hc] at hkeep
      cases inside with
      | true => rw [hkeep, firstAtWord?_inside hc, firstAtWord?_inside hc, ih]
      | false =>
        cases hs : definitionHere? (c :: s) with
        | some st =>
          -- the definition is of an id without icon, so the run passes over it
          obtain ⟨w, b, a, r, hdef, heq, -⟩ := exists_of_definitionHere? hc hs
          have hic : icons.iconOf? w = none :=
            due?_eq_none_iff.mp hnone w b a r hdef heq rfl hdef.word.ne_nil
          rw [heq, decorateAll_pass hdef (Or.inr hic), hdef.firstAtWord?, hdef.firstAtWord?,
            Option.map_some, definedNode_without_icon hic]
        | none =>
          have hre := (regrouped_decorateAll h.plain_iconOf? true [] s).char c
          have hnew := hre.definitionHere?_eq_none hc hs
          rw [hkeep, firstAtWord?_start hc, firstAtWord?_start hc, hs, hnew, Option.none_or,
            Option.none_or, ih]
    · rw [Bool.not_eq_true] at hc
      rw [decorateAll_keep hnone, firstAtWord?_gap hc, firstAtWord?_gap hc]
      rw [hc] at ih ⊢
      exact ih

theorem decorateAll_of_no_definition {icon? : List Char → Option (List Char)} {inside : Bool}
    {last t : List Char} (h : firstAtWord? definitionHere? inside t = none) :
    decorateAll icon? inside last t = t := by
  induction inside, last, t using decorateAll_induction icon? with
  | nil => exact decorateAll_nil _ _
  | draw last w b a r icon hdef hne hic ih =>
    rw [hdef.firstAtWord?] at h
    exact absurd h (by simp)
  | keep inside last c s hnone ih =>
    have hs : firstAtWord? definitionHere? (isIdChar c) s = none := by
      by_cases hc : isIdChar c = true
      · rw [hc]
        cases inside with
        | true => rwa [firstAtWord?_inside hc] at h
        | false =>
          rw [firstAtWord?_start hc, Option.or_eq_none_iff] at h
          exact h.2
      · rw [Bool.not_eq_true] at hc
        rw [firstAtWord?_gap hc] at h
        rwa [hc]
    rw [decorateAll_keep hnone, ih hs]

end IconMap

namespace Flowchart

section HeaderLine

variable {P : List Char → List Char → Prop} {s t : List Char}

theorem open_not_mem_of_keyword {cs : List Char} (h : Text.sameIgnoringCase cs keyword = true) :
    '[' ∉ cs := by
  intro hmem
  have hmap : cs.map Char.toLower = keyword.map Char.toLower := by
    simpa [Text.sameIgnoringCase] using h
  have hlower : Char.toLower '[' ∈ keyword.map Char.toLower := by
    rw [← hmap]
    exact List.mem_map_of_mem hmem
  revert hlower
  decide

/-- A header line stays one when groups get other contents: its first word holds
no bracket. -/
theorem isHeaderLine_of_regrouped (h : Regrouped P s t) (hs : isHeaderLine s = true) :
    isHeaderLine t = true := by
  have hstart : Regrouped P (Text.trimStart s) (Text.trimStart t) := (h.span isBlank_open).2
  have hsplit := List.takeWhile_append_dropWhile (p := (!Text.isBlank ·)) (l := Text.trimStart s)
  rw [← Text.firstWord] at hsplit
  rw [← hsplit] at hstart
  obtain ⟨rest, heq, hrest⟩ := hstart.split_of_not_mem (open_not_mem_of_keyword hs)
  have hword : ∀ c ∈ Text.firstWord s, (!Text.isBlank c) = true :=
    fun c hc => List.mem_takeWhile_imp (p := (!Text.isBlank ·)) hc
  have hstop : rest.takeWhile (!Text.isBlank ·) = [] := by
    have hhead := hrest.head?
    have hnot := List.head?_dropWhile_not (!Text.isBlank ·) (Text.trimStart s)
    rw [← hhead] at hnot
    cases rest with
    | nil => rfl
    | cons c rest => exact List.takeWhile_cons_of_neg (by simpa using hnot)
  have hsame : Text.firstWord t = Text.firstWord s := by
    rw [Text.firstWord, heq, List.takeWhile_append_of_pos hword, hstop, List.append_nil]
  rwa [isHeaderLine, hsame]

theorem isHeaderLine_regrouped (h : Regrouped P s t) : isHeaderLine t = isHeaderLine s := by
  rw [Bool.eq_iff_iff]
  exact ⟨isHeaderLine_of_regrouped h.symm, isHeaderLine_of_regrouped h⟩

end HeaderLine

theorem classify?_of_definition? {line : List Char} {st : Statement}
    (h : definition? line = some st) : classify? line = some (.nodeDefinition, st) := by
  simp [classify?, Rule.all, Rule.apply, h]

theorem withIcons_of_no_definition {line : List Char} {r : Rule} {st : Statement}
    (icons : IconMap) (hdef : definition? line = none) (h : classify? line = some (r, st)) :
    st.withIcons icons = st := by
  simp only [classify?, Rule.all, List.findSome?_cons, Rule.apply, hdef, Option.map_none,
    List.findSome?_nil] at h
  cases hc : connection? line with
  | some c =>
    obtain ⟨⟨source, l⟩, -, rfl⟩ := Option.map_eq_some_iff.mp hc
    simp only [hc, Option.map_some, Option.some.injEq, Prod.mk.injEq] at h
    rw [← h.2]
    rfl
  | none =>
    cases hp : plainConnection? line with
    | some c =>
      obtain ⟨⟨source, target⟩, -, rfl⟩ := Option.map_eq_some_iff.mp hp
      simp only [hc, hp, Option.map_none, Option.map_some, Option.some.injEq, Prod.mk.injEq] at h
      rw [← h.2]
      rfl
    | none =>
      cases hg : subgraph? line with
      | some c =>
        obtain ⟨id, -, rfl⟩ := Option.map_eq_some_iff.mp hg
        simp only [hc, hp, hg, Option.map_none, Option.map_some, Option.some.injEq,
          Prod.mk.injEq] at h
        rw [← h.2]
        rfl
      | none => simp [hc, hp, hg] at h

end Flowchart

namespace IconMap

variable {icons : IconMap}

/-- A decorated line is read by the rule that reads the line before. -/
theorem classify?_decorateAll (h : icons.Mergeable) (line : List Char) :
    classify? (decorateAll icons.iconOf? false [] line) =
      (classify? line).map fun (r, st) => (r, st.withIcons icons) := by
  have hfirst := firstAtWord?_decorateAll h false line
  cases hdef : Flowchart.definition? line with
  | some st =>
    have hnew : Flowchart.definition? (decorateAll icons.iconOf? false [] line) =
        some (st.withIcons icons) := by
      rw [Flowchart.definition?] at hdef ⊢
      rw [hfirst, hdef, Option.map_some]
    rw [classify?_of_definition? hdef, classify?_of_definition? hnew, Option.map_some]
  | none =>
    rw [decorateAll_of_no_definition hdef]
    cases hline : classify? line with
    | none => rfl
    | some found =>
      have hst := withIcons_of_no_definition icons hdef hline
      simp only [Option.map_some, hst]

theorem bodyLines_decorateAll (h : icons.Mergeable) {cs : List Char}
    (hone : OneLine icons.iconOf? cs) :
    bodyLines (decorateAll icons.iconOf? false [] cs) =
      (bodyLines cs).map (decorateAll icons.iconOf? false []) := by
  have hkept : ((fun line => !line.isEmpty && !isHeaderLine line) ∘
      decorateAll icons.iconOf? false []) = fun line => !line.isEmpty && !isHeaderLine line := by
    funext line
    have hre := regrouped_decorateAll h.plain_iconOf? false [] line
    have hempty : (decorateAll icons.iconOf? false [] line).isEmpty = line.isEmpty := by
      rw [Bool.eq_iff_iff, List.isEmpty_iff, List.isEmpty_iff]
      exact hre.eq_nil_iff
    rw [Function.comp_apply, hempty, isHeaderLine_regrouped hre]
  have htrim : (Text.lines cs).map (Text.trim ∘ decorateAll icons.iconOf? false []) =
      ((Text.lines cs).map Text.trim).map (decorateAll icons.iconOf? false []) := by
    rw [List.map_map]
    exact List.map_congr_left fun l _ => trim_decorateAll h.plain_iconOf? l
  rw [bodyLines, lines_decorateAll h.oneLine_iconOf? h.plain_iconOf? hone, List.map_map, htrim,
    List.filter_map, hkept, ← bodyLines]

/-- The statements of a decorated text are the statements of the text before,
each definition of a mapped id with its icon. -/
theorem statements_decorateAll (h : icons.Mergeable) {cs : List Char}
    (hone : OneLine icons.iconOf? cs) :
    statements (decorateAll icons.iconOf? false [] cs) =
      (statements cs).map (Statement.withIcons icons) := by
  rw [statements, bodyLines_decorateAll h hone, List.filterMap_map, statements, List.map_filterMap]
  apply List.filterMap_congr
  intro line _
  rw [Function.comp_apply, classify?_decorateAll h]
  cases classify? line <;> rfl

end IconMap

end FlowchartSlides
