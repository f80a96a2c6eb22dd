import FlowchartSlides.Proofs.Definitions

/-!
# The leftmost place where a rule fits

Rules that look for an id are tried at the starts of words alone. A rule that keeps
fitting when the word in front of it grows to the left loses nothing by this: it is
found exactly when it fits at some id character of the line, it is found at the
leftmost such place, and no id character stands before that place.
-/
namespace FlowchartSlides.Flowchart

/-- A text that does not end inside a word. -/
def EndsOutside (cs : List Char) : Prop := ∀ c ∈ cs.getLast?, isIdChar c = false

instance (cs : List Char) : Decidable (EndsOutside cs) :=
  decidable_of_iff (cs.getLast?.all (!isIdChar ·) = true) (by
    rw [EndsOutside]
    cases cs.getLast? <;> simp)

/-- A text that does not start inside a word. -/
def StartsOutside (cs : List Char) : Prop := ∀ c ∈ cs.head?, isIdChar c = false

theorem endsOutside_concat {c : Char} (hc : isIdChar c = false) (x : List Char) :
    EndsOutside (x ++ [c]) := by
  intro d hd
  rw [List.getLast?_concat] at hd
  obtain rfl := Option.some.inj hd
  exact hc

theorem endsOutside_written (x w b a : List Char) : EndsOutside (x ++ written w b a []) := by
  have hclose : x ++ written w b a [] = (x ++ (w ++ (b ++ '[' :: a))) ++ [']'] := by simp [written]
  rw [hclose]
  exact endsOutside_concat isIdChar_close _

theorem startsOutside_nil : StartsOutside [] := fun _ hc => absurd hc (by simp)

theorem startsOutside_afterWord (cs : List Char) : StartsOutside (afterWord cs) := by
  intro c hc
  have hnot := List.head?_dropWhile_not isIdChar cs
  rw [← afterWord, Option.mem_def.mp hc] at hnot
  exact hnot

/-- Two cuts of a text at the same character: the second one is no further to the left
than the first place where the character stands. -/
theorem cut_cases {c : Char} {u v p q : List Char} (hu : c ∉ u) (h : u ++ c :: v = p ++ c :: q) :
    (p = u ∧ q = v) ∨ ∃ s, p = u ++ c :: s ∧ v = s ++ c :: q := by
  rcases List.append_eq_append_iff.mp h with ⟨s, hp, hv⟩ | ⟨s, hp, hq⟩
  · cases s with
    | nil => exact Or.inl ⟨by simpa using hp, (List.cons.inj hv).2.symm⟩
    | cons d s =>
      obtain ⟨rfl, rfl⟩ := List.cons.inj hv
      exact Or.inr ⟨s, hp, rfl⟩
  · cases s with
    | nil => exact Or.inl ⟨by simpa using hp.symm, (List.cons.inj hq).2⟩
    | cons d s =>
      obtain ⟨rfl, -⟩ := List.cons.inj hq
      exact absurd (hp ▸ by simp) hu

variable {α : Type} {rule : List Char → Option α} {inside : Bool} {line before : List Char}

/-- A rule that fits at an id character fits at one right before it as well. -/
def GrowsLeft (rule : List Char → Option α) : Prop :=
  ∀ c d cs, isIdChar c = true → isIdChar d = true → (rule (d :: cs)).isSome →
    (rule (c :: d :: cs)).isSome

theorem GrowsLeft.append (h : GrowsLeft rule) {w : List Char} (hw : ∀ c ∈ w, isIdChar c = true)
    {d : Char} {cs : List Char} (hd : isIdChar d = true) (hfits : (rule (d :: cs)).isSome) :
    (rule (w ++ d :: cs)).isSome := by
  induction w with
  | nil => exact hfits
  | cons c w ih =>
    have hc := hw c List.mem_cons_self
    have hrest := ih fun e he => hw e (List.mem_cons_of_mem c he)
    cases w with
    | nil => exact h c d cs hc hd hrest
    | cons e w =>
      exact h c e (w ++ d :: cs) hc (hw e (by simp)) hrest

/-- The rule fits at an id character behind `before`; when the line begins inside a word,
that word has ended. -/
structure FitsBehind (rule : List Char → Option α) (inside : Bool) (line before : List Char) :
    Prop where
  fits : ∃ c cs, line = before ++ c :: cs ∧ isIdChar c = true ∧ (rule (c :: cs)).isSome
  apart : inside = true → ∃ g ∈ before, isIdChar g = false

namespace FitsBehind

variable {c : Char} {cs : List Char}

theorem tail_of_gap (h : FitsBehind rule inside (c :: cs) before) (hc : isIdChar c = false) :
    ∃ before', before = c :: before' ∧ FitsBehind rule false cs before' := by
  obtain ⟨d, ds, hline, hd, hfits⟩ := h.fits
  cases before with
  | nil =>
    obtain ⟨rfl, rfl⟩ := List.cons.inj hline
    exact absurd hd (by simp [hc])
  | cons b before' =>
    obtain ⟨rfl, rfl⟩ := List.cons.inj hline
    exact ⟨before', rfl, ⟨d, ds, rfl, hd, hfits⟩, fun hfalse => absurd hfalse Bool.false_ne_true⟩

theorem tail_of_inside (h : FitsBehind rule true (c :: cs) before) (hc : isIdChar c = true) :
    ∃ before', before = c :: before' ∧ FitsBehind rule true cs before' := by
  obtain ⟨d, ds, hline, hd, hfits⟩ := h.fits
  obtain ⟨g, hg, hgap⟩ := h.apart rfl
  cases before with
  | nil => exact absurd hg List.not_mem_nil
  | cons b before' =>
    obtain ⟨rfl, rfl⟩ := List.cons.inj hline
    have hg' : g ∈ before' := by
      rcases List.mem_cons.mp hg with rfl | hg
      · exact absurd hc (by simp [hgap])
      · exact hg
    exact ⟨before', rfl, ⟨d, ds, rfl, hd, hfits⟩, fun _ => ⟨g, hg', hgap⟩⟩

/-- At the start of a word the rule fits there, or behind the word. -/
theorem here_or_tail (h : FitsBehind rule false (c :: cs) before) (hgrows : GrowsLeft rule)
    (hc : isIdChar c = true) :
    (rule (c :: cs)).isSome ∨
      ∃ before', before = c :: before' ∧ FitsBehind rule true cs before' := by
  obtain ⟨d, ds, hline, hd, hfits⟩ := h.fits
  cases before with
  | nil =>
    obtain ⟨rfl, rfl⟩ := List.cons.inj hline
    exact Or.inl hfits
  | cons b before' =>
    obtain ⟨rfl, rfl⟩ := List.cons.inj hline
    by_cases hgap : ∃ g ∈ before', isIdChar g = false
    · exact Or.inr ⟨before', rfl, ⟨d, ds, rfl, hd, hfits⟩, fun _ => hgap⟩
    · have hword : ∀ g ∈ c :: before', isIdChar g = true := by
        intro g hg
        rcases List.mem_cons.mp hg with rfl | hg
        · exact hc
        · by_contra hnot
          exact hgap ⟨g, hg, Bool.not_eq_true _ ▸ hnot⟩
      exact Or.inl (hgrows.append hword hd hfits)

end FitsBehind

/-- A rule that fits somewhere is found. -/
theorem isSome_firstAtWord? (hgrows : GrowsLeft rule) (h : FitsBehind rule inside line before) :
    (firstAtWord? rule inside line).isSome := by
  induction line generalizing inside before with
  | nil =>
    obtain ⟨c, cs, hline, -⟩ := h.fits
    simp at hline
  | cons c cs ih =>
    by_cases hc : isIdChar c = true
    · cases inside with
      | true =>
        obtain ⟨before', -, h'⟩ := h.tail_of_inside hc
        rw [firstAtWord?_inside hc]
        exact ih h'
      | false =>
        rw [firstAtWord?_start hc, Option.isSome_or, Bool.or_eq_true]
        rcases h.here_or_tail hgrows hc with hhere | ⟨before', -, h'⟩
        · exact Or.inl hhere
        · exact Or.inr (ih h')
    · rw [Bool.not_eq_true] at hc
      obtain ⟨before', -, h'⟩ := h.tail_of_gap hc
      rw [firstAtWord?_gap hc]
      exact ih h'

/-- The rule gives `a` behind `before`, at the start of a word, and nowhere further left
does it fit. -/
structure FoundBehind (rule : List Char → Option α) (inside : Bool) (line before : List Char)
    (a : α) : Prop where
  gives : ∃ c cs, line = before ++ c :: cs ∧ isIdChar c = true ∧ rule (c :: cs) = some a
  ends : EndsOutside before
  start : before = [] → inside = false
  least : ∀ before', FitsBehind rule inside line before' → before.length ≤ before'.length

/-- What is found in the rest of a line is found in the line, when the first character
is passed over. -/
theorem FoundBehind.cons {rest : Bool} {c : Char} {cs : List Char} {a : α}
    (h : FoundBehind rule rest cs before a) (hc : isIdChar c = true → rest = true)
    (htail : ∀ before', FitsBehind rule inside (c :: cs) before' →
      ∃ before'', before' = c :: before'' ∧ FitsBehind rule rest cs before'') :
    FoundBehind rule inside (c :: cs) (c :: before) a where
  gives := by
    obtain ⟨d, ds, rfl, hd, hrule⟩ := h.gives
    exact ⟨d, ds, rfl, hd, hrule⟩
  ends := by
    intro e he
    cases before with
    | nil =>
      obtain rfl : c = e := by simpa using he
      by_contra hnot
      have hrest := hc (Bool.not_eq_false _ ▸ hnot)
      rw [h.start rfl] at hrest
      exact Bool.false_ne_true hrest
    | cons b before => exact h.ends e (by rwa [List.getLast?_cons_cons] at he)
  start := fun hnil => absurd hnil (List.cons_ne_nil c before)
  least := by
    intro before' h'
    obtain ⟨before'', rfl, h''⟩ := htail before' h'
    have hle := h.least before'' h''
    simp only [List.length_cons]
    omega

/-- What is found stands at the leftmost place where the rule fits. -/
theorem exists_foundBehind (hgrows : GrowsLeft rule) {a : α}
    (h : firstAtWord? rule inside line = some a) :
    ∃ before, FoundBehind rule inside line before a := by
  induction line generalizing inside with
  | nil => simp at h
  | cons c cs ih =>
    by_cases hc : isIdChar c = true
    · cases inside with
      | true =>
        rw [firstAtWord?_inside hc] at h
        obtain ⟨before, hfound⟩ := ih h
        exact ⟨c :: before, hfound.cons (fun _ => rfl) fun _ h' => h'.tail_of_inside hc⟩
      | false =>
        rw [firstAtWord?_start hc, Option.or_eq_some_iff] at h
        rcases h with h | ⟨hnone, h⟩
        · exact ⟨[], ⟨c, cs, rfl, hc, h⟩, fun _ he => absurd he (by simp), fun _ => rfl,
            fun _ _ => Nat.zero_le _⟩
        · obtain ⟨before, hfound⟩ := ih h
          refine ⟨c :: before, hfound.cons (fun _ => rfl) fun _ h' => ?_⟩
          rcases h'.here_or_tail hgrows hc with hhere | htail
          · exact absurd hhere (by simp [hnone])
          · exact htail
    · rw [Bool.not_eq_true] at hc
      rw [firstAtWord?_gap hc] at h
      obtain ⟨before, hfound⟩ := ih h
      exact ⟨c :: before, hfound.cons (fun htrue => absurd htrue (by simp [hc]))
        fun _ h' => h'.tail_of_gap hc⟩

/-- From the start of a line no word has to end before the rule may fit. -/
theorem fitsBehind_of_split {c : Char} {cs : List Char} (hline : line = before ++ c :: cs)
    (hc : isIdChar c = true) (hfits : (rule (c :: cs)).isSome) :
    FitsBehind rule false line before :=
  ⟨⟨c, cs, hline, hc, hfits⟩, fun hfalse => absurd hfalse Bool.false_ne_true⟩

end FlowchartSlides.Flowchart
