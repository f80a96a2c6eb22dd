import FlowchartSlides.Proofs.Groups

/-!
# Definitions one right after the other

To decorate a definition of an id the merger has to read a character before it, one that
belongs to no word. Right behind a decorated definition of the same id that character,
its closing bracket, is used up. So of definitions of one id in a row, with nothing in
between, every other one is decorated, and of all others each one.
-/
namespace FlowchartSlides

namespace Flowchart

/-- The piece of a text that stands behind as many pieces as `before` has. -/
def pieceBehind (before text : List Char) : Option Piece := (pieces text)[(pieces before).length]?

theorem pieceBehind_group {P : List Char → List Char → Prop} {before before' a : List Char}
    (h : Regrouped P before before')
    (ha : IsContent a) (r : List Char) :
    pieceBehind before (before' ++ '[' :: (a ++ ']' :: r)) = some (.group a) := by
  rw [pieceBehind, pieces_append_open, pieces_group ha, ← h.length_pieces,
    List.getElem?_append_right (Nat.le_refl _), Nat.sub_self]
  rfl

/-- A definition of `w` ends at the end of the text. -/
def EndsWithDefinition (w cs : List Char) : Prop :=
  ∃ p b a, Defines w b a ∧ EndsOutside p ∧ cs = p ++ written w b a []

/-- The text ends with `n` definitions of `w`, one right after the other, and no more. -/
inductive Repeats (w : List Char) : Nat → List Char → Prop
  | start {cs : List Char} : EndsOutside cs → ¬EndsWithDefinition w cs → Repeats w 0 cs
  | next {n : Nat} {cs b a : List Char} : Repeats w n cs → Defines w b a →
      Repeats w (n + 1) (cs ++ written w b a [])

theorem exists_repeats (w : List Char) {cs : List Char} (h : EndsOutside cs) :
    ∃ n, Repeats w n cs := by
  induction hn : cs.length using Nat.strong_induction_on generalizing cs with
  | _ n ih =>
    by_cases hends : EndsWithDefinition w cs
    · obtain ⟨p, b, a, hdef, hp, rfl⟩ := hends
      have hlt : p.length < n := by
        simp only [← hn, written, List.length_append, List.length_cons]
        omega
      obtain ⟨k, hk⟩ := ih _ hlt hp rfl
      exact ⟨k + 1, hk.next hdef⟩
    · exact ⟨0, .start h hends⟩

theorem Repeats.endsOutside {w cs : List Char} {n : Nat} (h : Repeats w n cs) : EndsOutside cs := by
  cases h with
  | start hcs _ => exact hcs
  | next _ _ => exact endsOutside_written _ _ _ _

theorem Repeats.eq_zero {w cs : List Char} {n : Nat} (h : Repeats w n cs)
    (hends : ¬EndsWithDefinition w cs) : n = 0 := by
  cases h with
  | start => rfl
  | next hrow hdef => exact absurd ⟨_, _, _, hdef, hrow.endsOutside, rfl⟩ hends

end Flowchart

namespace IconMap

open Flowchart

variable {icon? : List Char → Option (List Char)} {p w b a r icon merged : List Char}

/-- What starts before a definition ends before it, or goes on behind its bracket. -/
theorem closed_written (hp : EndsOutside p) (hdef : Defines w b a) :
    Closed icon? p (written w b a r) := by
  intro q s' w₀ b₀ a₀ r₀ hs hne hdef₀ _ heq
  have hapart : s' ++ (w ++ b) ≠ w₀ ++ b₀ := by
    intro h
    rcases List.append_eq_append_iff.mp h with ⟨z, hword, -⟩ | ⟨z, -, hblanks⟩
    · -- the text before the definition would end inside a word
      obtain ⟨c, hc⟩ := Option.ne_none_iff_exists'.mp (mt List.getLast?_eq_none_iff.mp hne)
      have hend : p.getLast? = some c := by rw [hs, List.getLast?_append_of_ne_nil q hne, hc]
      have hout : isIdChar c = false := hp c hend
      have hmem : c ∈ w₀ := hword ▸ List.mem_append_left z (List.mem_of_getLast? hc)
      rw [hdef₀.word.idChars c hmem] at hout
      exact Bool.false_ne_true hout.symm
    · -- the word of the definition would be blank
      obtain ⟨c, v, rfl, hc, -⟩ := hdef.word.exists_cons
      have hblank := hdef₀.blanks c (by rw [hblanks]; simp)
      rw [not_isBlank_of_isIdChar hc] at hblank
      exact Bool.false_ne_true hblank
  have hopen : (w₀ ++ b₀) ++ '[' :: (a₀ ++ ']' :: r₀) =
      (s' ++ (w ++ b)) ++ '[' :: (a ++ ']' :: r) := by
    rw [written, written] at heq
    simpa using heq.symm
  rcases cut_cases hdef₀.not_mem_open hopen with ⟨h, -⟩ | ⟨z, hlead, hbehind⟩
  · exact absurd h hapart
  · obtain ⟨v, rfl⟩ := hdef₀.content.exists_of_append_open hbehind
    have hwhole : s' ++ (w ++ b) = written w₀ b₀ a₀ v := by
      rw [hlead]
      simp [written]
    rcases written_eq_append hwhole with hin | ⟨y, hy, -⟩
    · exact hin
    · exact absurd (hdef.plain ']' (by rw [hy]; simp)) (by decide)

/-- What decorating remembers behind a text that does not end inside a word. -/
theorem LeftBy.of_endsOutside {cs last : List Char} {inside : Bool} (h : LeftBy cs inside last)
    (hcs : EndsOutside cs) : inside = false ∧ (last ≠ [] → EndsWithDefinition last cs) := by
  cases h with
  | start => exact ⟨rfl, fun hne => absurd rfl hne⟩
  | char cs c => exact ⟨hcs c (by rw [List.getLast?_concat]; rfl), fun hne => absurd rfl hne⟩
  | definition hdef hp => exact ⟨rfl, fun _ => ⟨_, _, _, hdef, hp, rfl⟩⟩

/-- Behind `n` definitions of `w` in a row, the last of them was decorated when `n` is odd. -/
theorem decorateAll_behind_repeats
    (hplain : ∀ w icon, icon? w = some icon → ∀ c ∈ icon, isBracket c = false)
    (hic : icon? w = some icon) {n : Nat} (h : Repeats w n p) (hdef : Defines w b a)
    (r : List Char) :
    ∃ p' last, Regrouped (fun a a' => ∃ w icon, icon? w = some icon ∧ a' = withIcon icon a) p p' ∧
      (last = w ↔ n % 2 = 1) ∧ decorateAll icon? false [] (p ++ written w b a r) =
        p' ++ decorateAll icon? false last (written w b a r) := by
  induction h generalizing b a r with
  | @start p hp hends =>
    have hseam : Closed icon? p (written w b a r) := closed_written hp hdef
    obtain ⟨inside, last, hout, hleft⟩ := exists_decorateAll_append hseam false []
    obtain ⟨rfl, hlast⟩ := (hleft [] .start).of_endsOutside hp
    refine ⟨_, last, regrouped_decorateAll hplain false [] p, ?_, hout⟩
    constructor
    · rintro rfl
      exact absurd (hlast hdef.word.ne_nil) hends
    · intro hodd
      exact absurd hodd (by decide)
  | @next n p b₁ a₁ _ hdef₁ ih =>
    obtain ⟨p', last, hre, hlast, hout⟩ := ih hdef₁ (written w b a r)
    have hrow : p ++ written w b₁ a₁ [] ++ written w b a r =
        p ++ written w b₁ a₁ (written w b a r) := by
      rw [List.append_assoc, written_nil_append]
    have hnew : ∀ a₂ s, p' ++ written w b₁ a₂ s = p' ++ written w b₁ a₂ [] ++ s := by
      intro a₂ s
      rw [List.append_assoc, written_nil_append]
    rw [hrow, hout]
    by_cases hodd : n % 2 = 1
    · -- right behind a decorated definition the next one stays
      rw [decorateAll_pass hdef₁ (.inl (hlast.mpr hodd).symm), hnew]
      refine ⟨_, [], hre.append (.refl _), ?_, rfl⟩
      constructor
      · intro hnil
        exact absurd hnil.symm hdef.word.ne_nil
      · intro hnext
        omega
    · have hne : w ≠ last := fun heq => hodd (hlast.mp heq.symm)
      have ha' := withIcon_isContent (hplain w icon hic) hdef₁.content
      rw [decorateAll_draw hdef₁ hne hic, hnew]
      refine ⟨_, w, hre.append (.definition hdef₁ ha' ⟨w, icon, hic, rfl⟩ .nil), ?_, rfl⟩
      constructor
      · intro _
        omega
      · exact fun _ => rfl

/-- A definition of `w` with its content, at a place of a text where `w` is a whole word. -/
structure Occurs (cs p w b a r : List Char) : Prop where
  cut : cs = p ++ written w b a r
  defines : Defines w b a
  outside : EndsOutside p

/-- In a merged text, the group of a definition has the icon before its label. -/
def Decorated (merged p w b a icon : List Char) : Prop :=
  ∃ a', Prefixed icon a a' ∧ pieceBehind (p ++ (w ++ b)) merged = some (.group a')

theorem Decorated.ne (h : Decorated merged p w b a icon) (htrim : Text.IsTrimmed icon)
    (hne : icon ≠ []) : pieceBehind (p ++ (w ++ b)) merged ≠ some (.group a) := by
  obtain ⟨a', hprefixed, hpiece⟩ := h
  rw [hpiece]
  intro heq
  exact hprefixed.ne htrim hne (Piece.group.inj (Option.some.inj heq))

section Pieces

variable {cs : List Char}
  (hplain : ∀ w icon, icon? w = some icon → ∀ c ∈ icon, isBracket c = false)
include hplain

/-- Behind an even number of definitions of its id in a row a definition is decorated,
behind an odd number it stays. -/
theorem piece_decorateAll (h : Occurs cs p w b a r) (hic : icon? w = some icon) {n : Nat}
    (hrow : Repeats w n p) :
    (n % 2 = 0 → Decorated (decorateAll icon? false [] cs) p w b a icon) ∧
      (n % 2 = 1 →
        pieceBehind (p ++ (w ++ b)) (decorateAll icon? false [] cs) = some (.group a)) := by
  obtain ⟨p', last, hre, hlast, hout⟩ := decorateAll_behind_repeats hplain hic hrow h.defines r
  have happ : ∀ a₂ s, p' ++ written w b a₂ s = (p' ++ (w ++ b)) ++ '[' :: (a₂ ++ ']' :: s) := by
    simp [written]
  have hlead := hre.append (.refl (w ++ b))
  rw [h.cut, hout]
  constructor
  · intro heven
    have hne : w ≠ last := by
      intro heq
      have hodd := hlast.mp heq.symm
      omega
    have ha' := withIcon_isContent (hplain w icon hic) h.defines.content
    rw [decorateAll_draw h.defines hne hic, happ]
    exact ⟨_, prefixed_withIcon icon a, pieceBehind_group hlead ha' _⟩
  · intro hodd
    rw [decorateAll_pass h.defines (.inl (hlast.mpr hodd).symm), happ]
    exact pieceBehind_group hlead h.defines.content _

theorem decorateAll_every_iff
    (htrim : ∀ w icon, icon? w = some icon → Text.IsTrimmed icon ∧ icon ≠ []) :
    (∀ p w b a r icon, Occurs cs p w b a r → icon? w = some icon →
        Decorated (decorateAll icon? false [] cs) p w b a icon) ↔
      ∀ p w b a r, Occurs cs p w b a r → icon? w ≠ none → ¬EndsWithDefinition w p := by
  constructor
  · rintro hall p w b a r hoccurs hmapped ⟨q, b₁, a₁, hdef₁, hq, rfl⟩
    obtain ⟨icon, hic⟩ := Option.ne_none_iff_exists'.mp hmapped
    obtain ⟨htrimmed, hne⟩ := htrim w icon hic
    have hfirst : Occurs cs q w b₁ a₁ (written w b a r) := by
      refine ⟨?_, hdef₁, hq⟩
      rw [hoccurs.cut, List.append_assoc, written_nil_append]
    obtain ⟨n, hrow⟩ := exists_repeats w hq
    -- one of the two in a row stays
    rcases Nat.mod_two_eq_zero_or_one n with heven | hodd
    · have hstays := (piece_decorateAll hplain hoccurs hic (hrow.next hdef₁)).2 (by omega)
      exact (hall _ w b a r icon hoccurs hic).ne htrimmed hne hstays
    · have hstays := (piece_decorateAll hplain hfirst hic hrow).2 hodd
      exact (hall q w b₁ a₁ _ icon hfirst hic).ne htrimmed hne hstays
  · intro hapart p w b a r icon hoccurs hic
    obtain ⟨n, hrow⟩ := exists_repeats w hoccurs.outside
    have hmapped : icon? w ≠ none := by
      rw [hic]
      exact Option.some_ne_none icon
    obtain rfl := hrow.eq_zero (hapart p w b a r hoccurs hmapped)
    exact (piece_decorateAll hplain hoccurs hic hrow).1 rfl

end Pieces

theorem isTrimmed_of_iconOf? {icons : IconMap} (hic : icons.iconOf? w = some icon) :
    Text.IsTrimmed icon ∧ icon ≠ [] := by
  obtain ⟨text, htext, rfl⟩ := Option.map_eq_some_iff.mp hic
  obtain ⟨htrimmed, hne⟩ := isTrimmed_of_icon? htext
  exact ⟨htrimmed, by simpa using hne⟩

/-- A definition of a mapped id gets its icon when the number of definitions of the same id
in a row right before it is even, and stays otherwise. So all definitions of mapped ids
get their icons exactly when no two of one id stand right behind one another. -/
theorem mergeInto_every_other {icons : IconMap} (h : icons.Plain) (source : String) :
    (∀ p w b a r icon, Occurs source.toList p w b a r → icons.iconOf? w = some icon →
      (∃ n, Repeats w n p) ∧ ∀ n, Repeats w n p →
        (n % 2 = 0 → Decorated (icons.mergeInto source).toList p w b a icon) ∧
        (n % 2 = 1 →
          pieceBehind (p ++ (w ++ b)) (icons.mergeInto source).toList = some (.group a))) ∧
    ((∀ p w b a r icon, Occurs source.toList p w b a r → icons.iconOf? w = some icon →
        Decorated (icons.mergeInto source).toList p w b a icon) ↔
      ∀ p w b a r, Occurs source.toList p w b a r → icons.iconOf? w ≠ none →
        ¬EndsWithDefinition w p) := by
  have hmerged : (icons.mergeInto source).toList =
      decorateAll icons.iconOf? false [] source.toList := by
    rw [mergeInto_eq_decorateAll h.words h.plain_iconOf?, String.toList_ofList]
  rw [hmerged]
  refine ⟨fun p w b a r icon hoccurs hic => ⟨exists_repeats w hoccurs.outside, ?_⟩, ?_⟩
  · exact fun n hrow => piece_decorateAll h.plain_iconOf? hoccurs hic hrow
  · exact decorateAll_every_iff h.plain_iconOf? fun _ _ hic => isTrimmed_of_iconOf? hic

/-- Of three definitions in a row the last one is decorated. -/
theorem mergeInto_every_other_third :
    let icons : IconMap := .ofList [("A", "🚀")]
    let source := "A[x]A[y]A['z']"
    icons.Plain ∧ icons.mergeInto source = "A[🚀 x]A[y]A['🚀 z']" ∧
      Decorated (icons.mergeInto source).toList "A[x]A[y]".toList ['A'] [] "'z'".toList
        "🚀".toList := by
  intro icons source
  have hplain : icons.Plain := by decide
  have hthird : Occurs source.toList "A[x]A[y]".toList ['A'] [] "'z'".toList [] :=
    ⟨by decide, by decide, by decide⟩
  have hstart : Repeats ['A'] 0 [] := by
    refine .start (by decide) ?_
    rintro ⟨q, b, a, -, -, hnil⟩
    simp [written] at hnil
  have hone : Repeats ['A'] 1 (written ['A'] [] ['x'] []) := hstart.next (by decide)
  have htwo : Repeats ['A'] 2 "A[x]A[y]".toList := hone.next (by decide : Defines ['A'] [] ['y'])
  have hicon : icons.iconOf? ['A'] = some "🚀".toList := by decide
  obtain ⟨hpieces, -⟩ := mergeInto_every_other hplain source
  obtain ⟨-, hdecorated⟩ := hpieces _ _ _ _ _ _ hthird hicon
  exact ⟨hplain, by decide +kernel, (hdecorated 2 htwo).1 rfl⟩

/-- The second of two definitions in a row stays. -/
theorem mergeInto_skips_second :
    let icons : IconMap := .ofList [("A", "🚀")]
    icons.Plain ∧ Occurs "A[x]A[y]".toList "A[x]".toList ['A'] [] ['y'] [] ∧
      icons.iconOf? ['A'] = some "🚀".toList ∧ icons.mergeInto "A[x]A[y]" = "A[🚀 x]A[y]" ∧
      pieceBehind "A[x]A".toList (icons.mergeInto "A[x]A[y]").toList = some (.group ['y']) := by
  have hmerged : mergeInto (.ofList [("A", "🚀")]) "A[x]A[y]" = "A[🚀 x]A[y]" := by decide +kernel
  refine ⟨by decide, ⟨by decide, by decide, by decide⟩, by decide, hmerged, ?_⟩
  rw [hmerged]
  decide

end IconMap

end FlowchartSlides
