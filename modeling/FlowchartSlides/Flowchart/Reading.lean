import FlowchartSlides.Flowchart.Statement
import FlowchartSlides.Text.Lines

/-!
# Reading a flowchart

Reading never fails: lines are trimmed, blank lines and header lines are left
out, every other line adds what its statement says, and lines without a
statement add nothing. The direction comes from the first line that is not
blank, wherever the header stands in it.
-/
namespace FlowchartSlides.Flowchart

def keyword : List Char := "flowchart".toList

/-- The keyword at the start of a text, at least one blank and a direction. -/
def headerHere? (cs : List Char) : Option Direction :=
  let head := cs.take keyword.length
  let rest := cs.drop keyword.length
  match rest with
  | c :: _ =>
    if Text.sameIgnoringCase head keyword && Text.isBlank c then
      Direction.ofChars? ((Text.trimStart rest).take 2)
    else none
  | [] => none

/-- The direction that the leftmost header in a line gives. -/
def headerDirection? (line : List Char) : Option Direction := firstAnywhere? headerHere? line

/-- A line whose first word is the keyword. -/
def isHeaderLine (line : List Char) : Bool :=
  Text.sameIgnoringCase (Text.firstWord line) keyword

/-- The first line that is not blank, untrimmed. -/
def firstLine? (text : List Char) : Option (List Char) :=
  (Text.lines text).find? (!Text.allBlank ·)

def direction? (text : List Char) : Option Direction := (firstLine? text).bind headerDirection?

/-- The trimmed lines that may hold a statement. -/
def bodyLines (text : List Char) : List (List Char) :=
  ((Text.lines text).map Text.trim).filter fun line => !line.isEmpty && !isHeaderLine line

/-- The statements of a text in order. -/
def statements (text : List Char) : List Statement :=
  (bodyLines text).filterMap fun line => (classify? line).map (·.2)

/-- Carries out one statement. -/
def Statement.addTo (f : Flowchart) : Statement → Flowchart
  | node id label => f.mention id (some label)
  | edge e => f.addEdge e
  | subgraph _ => f

/-- The flowchart that a text describes. -/
def ofText (text : String) : Flowchart :=
  (statements text.toList).foldl Statement.addTo { empty with direction := direction? text.toList }

end FlowchartSlides.Flowchart
