import FlowchartSlides.Proofs.Leftmost

/-!
# The grammar of node definitions

A line holds a definition when some part of it is an id, blanks, and a group with a
nonempty content without brackets. The rule reads the leftmost of these parts. The
id is then a whole word of the line; the label is the content, without the one pair
of quotes that it may stand in, and trimmed.
-/
namespace FlowchartSlides.Flowchart

/-- A content of three or more characters that starts and ends with the same quote. -/
def IsQuoted (a : List Char) : Prop :=
  3 ≤ a.length ∧ ∃ q, isQuote q = true ∧ a.head? = some q ∧ a.getLast? = some q

/-- A quoted content is its label between its quotes. -/
theorem exists_of_isQuoted {a : List Char} (h : IsQuoted a) :
    ∃ q label, isQuote q = true ∧ label ≠ [] ∧ a = q :: (label ++ [q]) := by
  obtain ⟨hlength, q, hq, hhead, hlast⟩ := h
  obtain ⟨s, rfl⟩ := List.head?_eq_some_iff.mp hhead
  have hs : s ≠ [] := by
    rintro rfl
    simp at hlength
  rw [List.getLast?_cons_of_ne_nil hs] at hlast
  obtain ⟨label, rfl⟩ := List.getLast?_eq_some_iff.mp hlast
  refine ⟨q, label, hq, ?_, rfl⟩
  rintro rfl
  simp at hlength

/-- The quotes of a content are taken off exactly when it is quoted. -/
theorem inner_ofContent (a : List Char) :
    (IsQuoted a → (Quoting.ofContent a).inner = (a.drop 1).dropLast) ∧
      (¬ IsQuoted a → (Quoting.ofContent a).inner = a) := by
  cases a with
  | nil => exact ⟨fun h => absurd h.1 (by simp), fun _ => rfl⟩
  | cons c cs =>
    have hiff : IsQuoted (c :: cs) ↔
        ((c == '"' || c == '\'') && decide (2 ≤ cs.length) && cs.getLast? == some c) = true := by
      simp only [IsQuoted, isQuote, Bool.and_eq_true, decide_eq_true_eq, beq_iff_eq,
        List.length_cons, List.head?_cons]
      constructor
      · rintro ⟨hlen, q, hq, hhead, hlast⟩
        obtain rfl := Option.some.inj hhead
        have hne : cs ≠ [] := by
          rintro rfl
          simp at hlen
        rw [List.getLast?_cons_of_ne_nil hne] at hlast
        exact ⟨⟨hq, by omega⟩, hlast⟩
      · rintro ⟨⟨hq, hlen⟩, hlast⟩
        have hne : cs ≠ [] := by
          rintro rfl
          simp at hlen
        refine ⟨by omega, c, hq, rfl, ?_⟩
        rw [List.getLast?_cons_of_ne_nil hne, hlast]
    rw [Quoting.ofContent, hiff]
    constructor
    · intro h
      rw [if_pos h]
      rfl
    · intro h
      rw [if_neg h]

variable {line before w b a r : List Char}

theorem Defines.fitsBehind (h : Defines w b a) (hline : line = before ++ written w b a r) :
    FitsBehind Flowchart.definitionHere? false line before := by
  have hfits : (Flowchart.definitionHere? (written w b a r)).isSome := by
    rw [h.definitionHere?]
    rfl
  obtain ⟨c, s, rfl, hc, -⟩ := h.word.exists_cons
  exact fitsBehind_of_split hline hc hfits

end FlowchartSlides.Flowchart
