import FlowchartSlides.Table

/-!
# Flowcharts

A flowchart has an optional direction, nodes in order of first mention with
their labels, and edges in order. Nodes are never removed; naming a node again
with a label overwrites the label and keeps its place.
-/
namespace FlowchartSlides

/-- The way a flowchart runs. -/
inductive Direction where
  | topDown
  | leftRight
  | rightLeft
  | bottomTop
deriving Repr, DecidableEq

namespace Direction

/-- The two-letter token of a direction. -/
def token : Direction → String
  | topDown => "TD"
  | leftRight => "LR"
  | rightLeft => "RL"
  | bottomTop => "BT"

/-- Reads a token in any case of its ASCII letters. -/
def ofChars? (cs : List Char) : Option Direction :=
  match cs.map Char.toUpper with
  | ['T', 'D'] => some topDown
  | ['L', 'R'] => some leftRight
  | ['R', 'L'] => some rightLeft
  | ['B', 'T'] => some bottomTop
  | _ => none

def ofToken? (s : String) : Option Direction := ofChars? s.toList

/-- Horizontal flowcharts lay all nodes out in one row. -/
def isHorizontal : Direction → Bool
  | leftRight | rightLeft => true
  | topDown | bottomTop => false

theorem ofToken?_token (d : Direction) : ofToken? d.token = some d := by
  cases d <;> decide

end Direction

structure Node where
  id : String
  label : String
deriving Repr, DecidableEq

/-- How the line of an edge is drawn. -/
inductive EdgeStyle where
  | solid
  | dotted
  | thick
deriving Repr, DecidableEq

def EdgeStyle.name : EdgeStyle → String
  | solid => "solid"
  | dotted => "dotted"
  | thick => "thick"

structure Edge where
  source : String
  target : String
  label : Option String
  style : EdgeStyle
  directed : Bool
deriving Repr, DecidableEq

structure Flowchart where
  direction : Option Direction
  nodes : Table Node
  edges : List Edge
deriving Repr, DecidableEq

namespace Flowchart

def empty : Flowchart := ⟨none, ∅, []⟩

instance : Inhabited Flowchart := ⟨empty⟩

/-- Mentions a node: a new one is labelled by its id, and a label, when given,
replaces the one it has. -/
def mention (f : Flowchart) (id : String) (label : Option String) : Flowchart :=
  let old := (f.nodes.get? id).getD ⟨id, id⟩
  { f with nodes := f.nodes.insert id ⟨old.id, label.getD old.label⟩ }

/-- Adds an edge after mentioning its source and its target. -/
def addEdge (f : Flowchart) (e : Edge) : Flowchart :=
  let g := (f.mention e.source none).mention e.target none
  { g with edges := g.edges ++ [e] }

/-- Adds an edge alone; its ends may name no node. -/
def addLooseEdge (f : Flowchart) (e : Edge) : Flowchart := { f with edges := f.edges ++ [e] }

def labelOf? (f : Flowchart) (id : String) : Option String := (f.nodes.get? id).map (·.label)

/-- A flowchart without direction is not horizontal. -/
def isHorizontal (f : Flowchart) : Bool := f.direction.any (·.isHorizontal)

end Flowchart

end FlowchartSlides
