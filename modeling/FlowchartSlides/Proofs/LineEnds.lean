import FlowchartSlides.Text.Lines
import Mathlib.Data.Nat.Init

/-!
# Lines of texts in a row

Reading lines goes from line feed to line feed: the text before the first one is
a line, less a carriage return at its end, and the lines of the text behind it
follow. So a line feed anywhere in a text starts a line there.
-/
namespace FlowchartSlides.Text

variable {cs s rest : List Char}

/-- A carriage return is taken off the end where one stands there. -/
theorem dropReturn_concat (cs : List Char) : dropReturn (cs ++ ['\r']) = cs := by
  induction cs with
  | nil => rfl
  | cons c cs ih =>
    have hne : cs ++ ['\r'] ≠ [] := by simp
    rw [List.cons_append, dropReturn, ih]
    rintro rfl h
    exact hne h

theorem dropReturn_eq_self (h : cs.getLast? ≠ some '\r') : dropReturn cs = cs := by
  induction cs with
  | nil => rfl
  | cons c cs ih =>
    cases cs with
    | nil =>
      rw [dropReturn]
      · rfl
      · rintro rfl -
        exact h rfl
    | cons d cs =>
      rw [dropReturn, ih (by rwa [List.getLast?_cons_cons] at h)]
      simp

/-- The end of a line leaves what stands before any other character. -/
theorem exists_dropReturn_append {m : Char} (hm : m ≠ '\r') (y z : List Char) :
    ∃ z', dropReturn (y ++ m :: z) = y ++ m :: z' := by
  by_cases h : (y ++ m :: z).getLast? = some '\r'
  · rw [List.getLast?_append, List.getLast?_cons, Option.some_or] at h
    cases hz : z.getLast? with
    | none =>
      rw [hz] at h
      exact absurd (Option.some.inj h) hm
    | some c =>
      rw [hz] at h
      obtain rfl : c = '\r' := Option.some.inj h
      obtain ⟨z', rfl⟩ := List.getLast?_eq_some_iff.mp hz
      refine ⟨z', ?_⟩
      rw [← List.cons_append, ← List.append_assoc, dropReturn_concat]
  · exact ⟨z, dropReturn_eq_self h⟩

/-- The text before the first line feed is the first line. -/
theorem lines_append (hs : '\n' ∉ s) (rest : List Char) :
    lines (s ++ '\n' :: rest) = dropReturn s :: lines rest := by
  rw [lines, split_append hs, lines]
  cases h : split '\n' rest with
  | nil => exact absurd h (split_ne_nil '\n' rest)
  | cons p ps => rfl

/-- A text without line feed is one line at most. -/
theorem lines_of_not_mem (hs : '\n' ∉ s) : lines s = if s.isEmpty then [] else [s] := by
  rw [lines, split_of_not_mem hs, linesOfPieces]

/-- A text is a text without line feed, or such a text, a line feed and a text behind it. -/
theorem lines_induction {P : List Char → Prop} (last : ∀ s, '\n' ∉ s → P s)
    (feed : ∀ s rest, '\n' ∉ s → P rest → P (s ++ '\n' :: rest)) (cs : List Char) : P cs := by
  induction hn : cs.length using Nat.strong_induction_on generalizing cs with
  | _ n ih =>
    by_cases hmem : '\n' ∈ cs
    · obtain ⟨s, rest, rfl, hs⟩ := List.eq_append_cons_of_mem hmem
      have hlt : rest.length < n := by
        rw [← hn, List.length_append, List.length_cons]
        omega
      exact feed s rest hs (ih _ hlt rest rfl)
    · exact last cs hmem

/-- The lines behind a line feed are lines of the whole text. -/
theorem lines_suffix (x rest : List Char) : lines rest <:+ lines (x ++ '\n' :: rest) := by
  induction x using lines_induction with
  | last s hs =>
    rw [lines_append hs]
    exact List.suffix_cons _ _
  | feed s x hs ih =>
    rw [List.append_assoc, List.cons_append, lines_append hs]
    exact ih.trans (List.suffix_cons _ _)

theorem mem_of_mem_dropReturn {c : Char} (h : c ∈ dropReturn cs) : c ∈ cs := by
  by_cases hlast : cs.getLast? = some '\r'
  · obtain ⟨s, rfl⟩ := List.getLast?_eq_some_iff.mp hlast
    rw [dropReturn_concat] at h
    exact List.mem_append_left _ h
  · rwa [dropReturn_eq_self hlast] at h

/-- No line holds a line feed. -/
theorem lineFeed_not_mem_of_mem_lines {l : List Char} (h : l ∈ lines cs) : '\n' ∉ l := by
  induction cs using lines_induction with
  | last s hs =>
    rw [lines_of_not_mem hs] at h
    split at h
    next => simp at h
    next => rwa [List.mem_singleton.mp h]
  | feed s rest hs ih =>
    rw [lines_append hs] at h
    rcases List.mem_cons.mp h with rfl | h
    · exact fun hmem => hs (mem_of_mem_dropReturn hmem)
    · exact ih h

theorem lines_append_feed (x rest : List Char) :
    lines (x ++ '\n' :: rest) = lines (x ++ ['\n']) ++ lines rest := by
  induction x using lines_induction with
  | last s hs =>
    rw [lines_append hs, lines_append hs, lines_nil]
    rfl
  | feed s x hs ih =>
    rw [List.append_assoc, List.append_assoc, List.cons_append, List.cons_append, lines_append hs,
      lines_append hs, ih]
    rfl

/-- Behind a text without a last line that is open, lines follow its lines. -/
theorem lines_ended_append {x : List Char} (hx : ∀ c ∈ x.getLast?, c = '\n') (rest : List Char) :
    lines (x ++ rest) = lines x ++ lines rest := by
  cases hlast : x.getLast? with
  | none =>
    rw [List.getLast?_eq_none_iff.mp hlast]
    rfl
  | some c =>
    obtain ⟨y, rfl⟩ := List.getLast?_eq_some_iff.mp hlast
    obtain rfl := hx c hlast
    rw [List.append_assoc, List.singleton_append, lines_append_feed]

/-- What stands first in a text stands first in its first line. -/
theorem exists_first_line {y : List Char} (hy : '\n' ∉ y) {m : Char} (hm : m ≠ '\n')
    (hr : m ≠ '\r') (z : List Char) : ∃ z', y ++ m :: z' ∈ lines (y ++ m :: z) := by
  by_cases hmem : '\n' ∈ z
  · obtain ⟨s, z', rfl, hs⟩ := List.eq_append_cons_of_mem hmem
    have hline : '\n' ∉ y ++ m :: s := by simp [hy, Ne.symm hm, hs]
    obtain ⟨t, ht⟩ := exists_dropReturn_append hr y s
    refine ⟨t, ?_⟩
    rw [← List.cons_append, ← List.append_assoc, lines_append hline, ht]
    exact List.mem_cons_self
  · have hline : '\n' ∉ y ++ m :: z := by simp [hy, Ne.symm hm, hmem]
    refine ⟨z, ?_⟩
    rw [lines_of_not_mem hline, if_neg (by simp)]
    exact List.mem_singleton_self _

theorem unlines_cons_cons (l l' : List Char) (ls : List (List Char)) :
    unlines (l :: l' :: ls) = l ++ '\n' :: unlines (l' :: ls) := by
  rw [unlines, List.intercalate_cons_cons, List.append_assoc]
  rfl

/-- Lines that hold no line feed and no carriage return at the end are read back from their
text, but for a last one that is empty. -/
theorem lines_unlines_eq {ls : List (List Char)} (hone : ∀ l ∈ ls, '\n' ∉ l)
    (hlast : ∀ l ∈ ls, l.getLast? ≠ some '\r') :
    lines (unlines ls) = if ls.getLast? = some [] then ls.dropLast else ls := by
  induction ls with
  | nil => rfl
  | cons l ls ih =>
    have hl := List.mem_cons_self (a := l) (l := ls)
    cases ls with
    | nil =>
      have hsingle : unlines [l] = l := List.intercalate_singleton
      rw [hsingle, lines_of_not_mem (hone l hl)]
      cases l <;> simp
    | cons l' ls =>
      have hrest := ih (fun x hx => hone x (List.mem_cons_of_mem l hx))
        (fun x hx => hlast x (List.mem_cons_of_mem l hx))
      rw [unlines_cons_cons, lines_append (hone l hl), dropReturn_eq_self (hlast l hl), hrest,
        List.getLast?_cons_cons, List.dropLast_cons_cons, apply_ite (List.cons l)]

/-- Lines that hold something, no line feed and no carriage return at the end are
read back from their text. -/
theorem lines_unlines {ls : List (List Char)} (hne : ∀ l ∈ ls, l ≠ []) (hone : ∀ l ∈ ls, '\n' ∉ l)
    (hlast : ∀ l ∈ ls, l.getLast? ≠ some '\r') : lines (unlines ls) = ls := by
  rw [lines_unlines_eq hone hlast, if_neg]
  exact fun hempty => hne [] (List.mem_of_getLast? hempty) rfl

end FlowchartSlides.Text
