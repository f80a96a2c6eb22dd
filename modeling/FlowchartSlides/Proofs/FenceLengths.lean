import FlowchartSlides.Proofs.Segments

/-!
# Fences of any length

Three marks or more open a block (`opening?_run`), but only three marks close one
(`closes_run_iff`). So what stands between two fences of the same length is a block exactly when
they have three marks each; a longer fence becomes a line of the block that it began, which stays
open (`blocksFrom_around_longer`).
-/
namespace FlowchartSlides.Markdown

variable {f : Fence} {n : Nat} {body : List (List Char)} {line : List Char}

namespace Fence

/-- A number of marks in a row. -/
def run (f : Fence) (n : Nat) : List Char := List.replicate n f.mark

/-- The lines of a block between two fences of `n` marks each. -/
def around (f : Fence) (n : Nat) (body : List (List Char)) : List (List Char) :=
  (f.run n ++ language) :: (body ++ [f.run n])

theorem run_add (f : Fence) (m n : Nat) : f.run (m + n) = f.run m ++ f.run n :=
  List.replicate_add m n f.mark

theorem eq_mark_of_mem_run {c : Char} (h : c ∈ f.run n) : c = f.mark := List.eq_of_mem_replicate h

theorem isBlank_mark (f : Fence) : Text.isBlank f.mark = false := by cases f <;> decide

theorem isBlank_of_mem_run {c : Char} (h : c ∈ f.run n) : Text.isBlank c = false := by
  rw [eq_mark_of_mem_run h]
  exact f.isBlank_mark

theorem isBlank_of_mem_run_language {c : Char} (h : c ∈ f.run n ++ language) :
    Text.isBlank c = false := by
  have hlanguage : (language.all fun c => !Text.isBlank c) = true := by decide
  rcases List.mem_append.mp h with h | h
  · exact isBlank_of_mem_run h
  · exact Bool.eq_false_of_not_eq_true' (List.all_eq_true.mp hlanguage c h)

theorem trim_run (f : Fence) (n : Nat) : Text.trim (f.run n) = f.run n :=
  (Text.isTrimmed_of_forall fun _ => isBlank_of_mem_run).trim_eq

theorem trim_run_language (f : Fence) (n : Nat) :
    Text.trim (f.run n ++ language) = f.run n ++ language :=
  (Text.isTrimmed_of_forall fun _ => isBlank_of_mem_run_language).trim_eq

/-- A longer run, less the marks of the fence. -/
theorem dropLead?_marks_run (f : Fence) (k : Nat) (rest : List Char) :
    Text.dropLead? f.marks (f.run (3 + k) ++ rest) = some (f.run k ++ rest) := by
  rw [run_add, List.append_assoc]
  exact Text.dropLead?_append f.marks (f.run k ++ rest)

theorem closes_eq_false (h : ¬f.marks <+: line) : f.closes line = false := by
  rw [closes, Text.dropLead?_eq_none_iff.mpr h]
  rfl

/-- Of all runs of marks, the one of three closes a block. -/
theorem closes_run_iff (f : Fence) (n : Nat) : f.closes (f.run n) = true ↔ n = 3 := by
  by_cases hn : 3 ≤ n
  · obtain ⟨k, rfl⟩ := Nat.exists_eq_add_of_le hn
    have hdrop := f.dropLead?_marks_run k []
    rw [List.append_nil, List.append_nil] at hdrop
    rw [closes, hdrop, Option.any_some, Nat.add_eq_left]
    cases k with
    | zero => exact ⟨fun _ => rfl, fun _ => rfl⟩
    | succ k =>
      rw [Text.allBlank, run, List.replicate_succ, List.all_cons, f.isBlank_mark, Bool.false_and]
      simp
  · have hshort : ¬f.marks <+: f.run n := by
      intro hlead
      have hlength : f.marks.length ≤ (f.run n).length := hlead.length_le
      rw [marks, run, List.length_replicate, List.length_replicate] at hlength
      exact hn hlength
    rw [closes_eq_false hshort]
    constructor
    · exact fun h => absurd h Bool.false_ne_true
    · rintro rfl
      exact absurd le_rfl hn

/-- Three marks or more open a block. -/
theorem opens_run (f : Fence) (hn : 3 ≤ n) : f.opens (f.run n ++ language) = true := by
  obtain ⟨k, rfl⟩ := Nat.exists_eq_add_of_le hn
  have hbehind : (f.run (3 + k) ++ language).dropWhile (· == f.mark) = language := by
    rw [List.dropWhile_append_of_pos fun c hc => beq_iff_eq.mpr (eq_mark_of_mem_run hc)]
    cases f <;> decide
  have hlanguage : (Text.dropLead? language (Text.trimStart language)).isSome = true := by decide
  rw [opens, f.dropLead?_marks_run, hbehind, hlanguage]
  rfl

end Fence

theorem opening?_run (f : Fence) (hn : 3 ≤ n) : opening? (f.run n ++ language) = some f := by
  have hopens := f.opens_run hn
  cases f with
  | backticks => exact List.find?_cons_of_pos hopens
  | tildes =>
    -- the backticks are looked for first, and a tilde is none
    have hother : Fence.backticks.opens (Fence.tildes.run n ++ language) = false := by
      obtain ⟨k, rfl⟩ := Nat.exists_eq_add_of_le' hn
      rfl
    rw [opening?, List.find?_cons_of_neg (by rw [hother]; exact Bool.false_ne_true)]
    exact List.find?_cons_of_pos hopens

theorem closes_trim_eq_false (hbody : ∀ line ∈ body, ¬f.marks <+: Text.trim line) :
    ∀ line ∈ body, f.closes (Text.trim line) = false :=
  fun line hline => Fence.closes_eq_false (hbody line hline)

/-- What stands between fences of three marks is a block. -/
theorem blocksFrom_around_three (hbody : ∀ line ∈ body, ¬f.marks <+: Text.trim line)
    (rest : List (List Char)) :
    blocksFrom .prose (f.around 3 body ++ rest) = Text.unlines body :: blocksFrom .prose rest := by
  have hopens : opening? (Text.trim (f.run 3 ++ language)) = some f := by
    rw [f.trim_run_language, opening?_run f le_rfl]
  have hcloses : f.closes (Text.trim (f.run 3)) = true := by
    rw [f.trim_run, f.closes_run_iff]
  exact blocksFrom_segment
    (.block f (f.run 3 ++ language) body (f.run 3) hopens (closes_trim_eq_false hbody) hcloses) rest

/-- A longer fence becomes a line of the block that it began, and the block stays open for what
follows. -/
theorem blocksFrom_around_longer (hn : 3 < n)
    (hbody : ∀ line ∈ body, ¬f.marks <+: Text.trim line) (rest : List (List Char)) :
    blocksFrom .prose (f.around n body ++ rest) =
      blocksFrom (.block f (f.run n :: body.reverse)) rest := by
  have hopens : opening? (Text.trim (f.run n ++ language)) = some f := by
    rw [f.trim_run_language, opening?_run f hn.le]
  have hcloses : f.closes (Text.trim (f.run n)) = false := by
    rw [f.trim_run, ← Bool.not_eq_true, f.closes_run_iff]
    exact hn.ne'
  rw [Fence.around, List.cons_append, blocksFrom, hopens, List.append_assoc]
  simp only [blocksFrom_inside (closes_trim_eq_false hbody), List.singleton_append]
  rw [blocksFrom, hcloses, if_neg Bool.false_ne_true, List.append_nil]

/-- Lines between two fences are read back from their text. -/
theorem lines_unlines_around (f : Fence) (hn : 3 ≤ n)
    (hbody : ∀ line ∈ body, '\n' ∉ line ∧ line.getLast? ≠ some '\r') :
    Text.lines (Text.unlines (f.around n body)) = f.around n body := by
  have hlines : ∀ line ∈ f.around n body, line ∈ body ∨ ∀ c ∈ line, Text.isBlank c = false := by
    intro line hline
    rcases List.mem_cons.mp hline with rfl | hline
    · exact Or.inr fun _ => Fence.isBlank_of_mem_run_language
    · rcases List.mem_append.mp hline with hline | hline
      · exact Or.inl hline
      · rw [List.mem_singleton.mp hline]
        exact Or.inr fun _ => Fence.isBlank_of_mem_run
  have hone : ∀ line ∈ f.around n body, '\n' ∉ line := by
    intro line hline
    rcases hlines line hline with h | h
    · exact (hbody line h).1
    · exact fun hmem => absurd (h '\n' hmem) (by decide)
  have hlast : ∀ line ∈ f.around n body, line.getLast? ≠ some '\r' := by
    intro line hline
    rcases hlines line hline with h | h
    · exact (hbody line h).2
    · exact fun hmem => absurd (h '\r' (List.mem_of_getLast? hmem)) (by decide)
  have hne : (f.around n body).getLast? ≠ some [] := by
    rw [Fence.around, ← List.cons_append, List.getLast?_concat]
    intro hempty
    have hlength := congrArg List.length (Option.some.inj hempty)
    rw [Fence.run, List.length_replicate, List.length_nil] at hlength
    omega
  rw [Text.lines_unlines_eq hone hlast, if_neg hne]

/-- Of a text whose lines are a fence that opens a block, lines that do not start with its marks,
and the same fence again, the lines in between are the only block when the fence has three marks,
and there is no block when it has more. The text may end its lines in any way; among the texts are
those with single line feeds between the lines. -/
theorem blocks_around_iff (f : Fence) (hn : 3 ≤ n)
    (hbody : ∀ line ∈ body, ¬f.marks <+: Text.trim line) :
    (∀ text, Text.lines text = f.around n body →
      blocks text = if n = 3 then [Text.unlines body] else []) ∧
    ((∀ line ∈ body, '\n' ∉ line ∧ line.getLast? ≠ some '\r') →
      (blocks (Text.unlines (f.around n body)) = [Text.unlines body] ↔ n = 3)) := by
  have hblocks : ∀ text, Text.lines text = f.around n body →
      blocks text = if n = 3 then [Text.unlines body] else [] := by
    intro text hlines
    rw [blocks, hlines, ← List.append_nil (f.around n body)]
    rcases hn.eq_or_lt with rfl | hlonger
    · rw [blocksFrom_around_three hbody, if_pos rfl]
      rfl
    · rw [blocksFrom_around_longer hlonger hbody, if_neg hlonger.ne']
      rfl
  refine ⟨hblocks, fun hline => ?_⟩
  rw [hblocks _ (lines_unlines_around f hn hline)]
  by_cases h : n = 3
  · simp [h]
  · simp [h]

/-- Four tildes around lines of which one is a fence of the other kind: the lines end with carriage
returns in the first text. -/
theorem blocks_around_four :
    let body := ["flowchart LR".toList, "```".toList, " A --> B".toList]
    let text := "~~~~mermaid\r\nflowchart LR\r\n```\r\n A --> B\r\n~~~~\r\n".toList
    3 ≤ 4 ∧ (∀ line ∈ body, ¬Fence.tildes.marks <+: Text.trim line) ∧
      (∀ line ∈ body, '\n' ∉ line ∧ line.getLast? ≠ some '\r') ∧
      Text.lines text = Fence.tildes.around 4 body ∧ blocks text = [] ∧
      blocks (Text.unlines (Fence.tildes.around 4 body)) ≠ [Text.unlines body] := by
  intro body text
  have hbody : ∀ line ∈ body, ¬Fence.tildes.marks <+: Text.trim line := by decide
  have hline : ∀ line ∈ body, '\n' ∉ line ∧ line.getLast? ≠ some '\r' := by decide
  have hlines : Text.lines text = Fence.tildes.around 4 body := by decide
  have haround := blocks_around_iff Fence.tildes (by decide : 3 ≤ 4) hbody
  refine ⟨by decide, hbody, hline, hlines, haround.1 text hlines, ?_⟩
  rw [ne_eq, haround.2 hline]
  decide

/-- A block between two fences of four marks is lost; between fences of three it is found. -/
theorem long_fence_loses_block :
    (∀ line ∈ ["A --> B".toList], ¬Fence.backticks.marks <+: Text.trim line) ∧
      blocks "```mermaid\nA --> B\n```".toList = ["A --> B".toList] ∧
      blocks "````mermaid\nA --> B\n````".toList = [] ∧
      blocks "````mermaid\nA --> B\n````".toList ≠ ["A --> B".toList] := by
  decide

end FlowchartSlides.Markdown
