import FlowchartSlides.Text.Blank
import FlowchartSlides.Text.Lines

/-!
# Flowcharts in Markdown

A flowchart stands in a block between two fences of the same kind. Lines are
looked at without the blanks at their ends, but kept as they are. A fence may be
longer than three marks where it opens a block; it closes one with exactly
three. A block that is not closed is none.
-/
namespace FlowchartSlides.Markdown

/-- The kinds of fences. -/
inductive Fence where
  | backticks
  | tildes
deriving Repr, DecidableEq

/-- What follows the marks of the fence that opens a block. -/
def language : List Char := "mermaid".toList

namespace Fence

def mark : Fence → Char
  | backticks => '\x60'
  | tildes => '~'

/-- The three marks of a fence. -/
def marks (f : Fence) : List Char := List.replicate 3 f.mark

/-- Whether a trimmed line begins with the fence, and has the language after all
marks at its start. -/
def opens (f : Fence) (line : List Char) : Bool :=
  (Text.dropLead? f.marks line).isSome &&
    (Text.dropLead? language (Text.trimStart (line.dropWhile (· == f.mark)))).isSome

/-- Whether a trimmed line is the fence alone. -/
def closes (f : Fence) (line : List Char) : Bool :=
  (Text.dropLead? f.marks line).any Text.allBlank

end Fence

/-- The fence with which a trimmed line opens a block. -/
def opening? (line : List Char) : Option Fence := [Fence.backticks, .tildes].find? (·.opens line)

/-- Where a line stands: in the prose, or in a block with the lines of it so far,
the last one first. -/
inductive Place where
  | prose
  | block (fence : Fence) (body : List (List Char))

/-- The closed blocks in lines whose first one stands at a given place. -/
def blocksFrom : Place → List (List Char) → List (List Char)
  | _, [] => []
  | .prose, line :: rest =>
    match opening? (Text.trim line) with
    | some fence => blocksFrom (.block fence []) rest
    | none => blocksFrom .prose rest
  | .block fence body, line :: rest =>
    if fence.closes (Text.trim line) then Text.unlines body.reverse :: blocksFrom .prose rest
    else blocksFrom (.block fence (line :: body)) rest

/-- The contents of the closed blocks of a text in order. -/
def blocks (text : List Char) : List (List Char) := blocksFrom .prose (Text.lines text)

end FlowchartSlides.Markdown
