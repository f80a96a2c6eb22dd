import FlowchartSlides.Proofs.Fenced

/-!
# Markdown texts segment by segment

A Markdown text is made of lines of prose and of closed blocks, and may end with a block that is
never closed. Reading goes through it segment by segment: it is in the prose before and behind
each of them (`blocksFrom_segment`), so nothing is lost, joined or carried over between blocks,
and the blocks of the text are the bodies of its closed blocks.
-/
namespace FlowchartSlides.Markdown

/-- A line of prose, or a block with the line that opens it, the lines of its body and the line
that closes it. -/
inductive Segment where
  | prose (line : List Char) (unopened : opening? (Text.trim line) = none)
  | block (fence : Fence) (first : List Char) (body : List (List Char)) (last : List Char)
    (opens : opening? (Text.trim first) = some fence)
    (unclosed : ∀ line ∈ body, fence.closes (Text.trim line) = false)
    (closes : fence.closes (Text.trim last) = true)

namespace Segment

def lines : Segment → List (List Char)
  | prose line _ => [line]
  | block _ first body last .. => first :: (body ++ [last])

/-- The body of a block as one text. -/
def body? : Segment → Option (List Char)
  | prose .. => none
  | block _ _ body .. => some (Text.unlines body)

end Segment

/-- A block at the end of a text that no line closes. -/
structure OpenBlock where
  fence : Fence
  first : List Char
  body : List (List Char)
  opens : opening? (Text.trim first) = some fence
  unclosed : ∀ line ∈ body, fence.closes (Text.trim line) = false

namespace OpenBlock

def lines (b : OpenBlock) : List (List Char) := b.first :: b.body

end OpenBlock

/-- The lines of a Markdown text. -/
def linesOf (segments : List Segment) (last : Option OpenBlock) : List (List Char) :=
  segments.flatMap Segment.lines ++ last.toList.flatMap OpenBlock.lines

/-- A segment is read from prose to prose. -/
theorem blocksFrom_segment (s : Segment) (rest : List (List Char)) :
    blocksFrom .prose (s.lines ++ rest) = s.body?.toList ++ blocksFrom .prose rest := by
  cases s with
  | prose line unopened =>
    rw [Segment.lines, List.singleton_append, blocksFrom, unopened]
    rfl
  | block fence first body last opens unclosed closes =>
    rw [Segment.lines, List.cons_append, List.append_assoc, List.singleton_append, blocksFrom,
      opens]
    exact blocksFrom_block unclosed closes rest

/-- Lines of which none closes a block leave it open. -/
theorem blocksFrom_unclosed {fence : Fence} {ls : List (List Char)}
    (h : ∀ line ∈ ls, fence.closes (Text.trim line) = false) (body : List (List Char)) :
    blocksFrom (.block fence body) ls = [] := by
  have hinside := blocksFrom_inside h body []
  rwa [List.append_nil, blocksFrom] at hinside

theorem blocksFrom_openBlock (b : OpenBlock) : blocksFrom .prose b.lines = [] := by
  rw [OpenBlock.lines, blocksFrom, b.opens]
  exact blocksFrom_unclosed b.unclosed []

/-- Reading the lines of a text finds the bodies of its closed blocks. -/
theorem blocksFrom_linesOf (segments : List Segment) (last : Option OpenBlock) :
    blocksFrom .prose (linesOf segments last) = segments.filterMap Segment.body? := by
  induction segments with
  | nil =>
    cases last with
    | none => rfl
    | some b =>
      rw [linesOf, List.flatMap_nil, List.nil_append, Option.toList_some, List.flatMap_singleton]
      exact blocksFrom_openBlock b
  | cons s segments ih =>
    rw [linesOf, List.flatMap_cons, List.append_assoc, ← linesOf, blocksFrom_segment, ih]
    cases s <;> rfl

/-- An empty line at the end neither opens nor closes a block. -/
theorem blocksFrom_concat_nil (place : Place) (ls : List (List Char)) :
    blocksFrom place (ls ++ [[]]) = blocksFrom place ls := by
  have hopen : opening? (Text.trim []) = none := by decide
  have hclose : ∀ fence : Fence, fence.closes (Text.trim []) = false := fun fence => by
    cases fence <;> decide
  induction ls generalizing place with
  | nil => cases place <;> simp [blocksFrom, hopen, hclose]
  | cons line ls ih =>
    cases place with
    | prose => cases h : opening? (Text.trim line) <;> simp [blocksFrom, h, ih]
    | block fence body => simp [blocksFrom, ih]

/-- Reading undoes writing: from segments and perhaps an open block, whose lines are joined by line
feeds, exactly the bodies of the closed blocks come back, in order and with their lines as
they are. No line may hold a line feed or end with a carriage return, as these make line ends. -/
theorem blocks_unlines_linesOf (segments : List Segment) (last : Option OpenBlock)
    (hone : ∀ line ∈ linesOf segments last, '\n' ∉ line)
    (hlast : ∀ line ∈ linesOf segments last, line.getLast? ≠ some '\r') :
    blocks (Text.unlines (linesOf segments last)) = segments.filterMap Segment.body? := by
  rw [blocks, Text.lines_unlines_eq hone hlast, ← blocksFrom_linesOf segments last]
  split
  next hempty =>
    -- an empty last line is no line of the text
    obtain ⟨ls, hls⟩ := List.getLast?_eq_some_iff.mp hempty
    rw [hls, List.dropLast_concat, blocksFrom_concat_nil]
  next => rfl

/-- A block with the other kind of fence in it, code in another language, an empty block behind a
longer fence, and a block that is not closed. -/
theorem blocks_unlines_linesOf_notes :
    let chart := ["flowchart LR".toList, "~~~".toList, "  A --> B ".toList]
    let segments : List Segment :=
      [.prose "Notes".toList (by decide),
        .block .backticks "``` mermaid".toList chart " ```".toList (by decide) (by decide)
          (by decide),
        .prose "```rust".toList (by decide), .prose "```".toList (by decide),
        .block .tildes "~~~~mermaid".toList [] "~~~".toList (by decide) (by decide) (by decide)]
    let last : OpenBlock := ⟨.backticks, "```mermaid".toList, [[]], by decide, by decide⟩
    (∀ line ∈ linesOf segments last, '\n' ∉ line) ∧
      (∀ line ∈ linesOf segments last, line.getLast? ≠ some '\r') ∧
      blocks (Text.unlines (linesOf segments last)) =
        ["flowchart LR\n~~~\n  A --> B ".toList, []] := by
  intro chart segments last
  have hone : ∀ line ∈ linesOf segments last, '\n' ∉ line := by decide
  have hlast : ∀ line ∈ linesOf segments last, line.getLast? ≠ some '\r' := by decide
  refine ⟨hone, hlast, ?_⟩
  rw [blocks_unlines_linesOf segments last hone hlast]
  decide

end FlowchartSlides.Markdown
