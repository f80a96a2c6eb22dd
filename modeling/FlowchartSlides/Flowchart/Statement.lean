import FlowchartSlides.Flowchart.Group
import FlowchartSlides.Flowchart.Link

/-!
# Statements of single lines

Four rules are tried on a line in a fixed order, and the first that fits says
what the line means. A node definition comes first: a line that holds one is
never read as an edge.
-/
namespace FlowchartSlides.Flowchart

/-- What one line adds to a flowchart. -/
inductive Statement where
  | node (id label : String)
  | edge (e : Edge)
  | subgraph (id : String)
deriving Repr, DecidableEq

inductive Rule where
  | nodeDefinition
  | connection
  | plainConnection
  | subgraph
deriving Repr, DecidableEq

/-- An id, blanks and a group at the start of a text. -/
def definitionHere? (cs : List Char) : Option Statement :=
  (group? (Text.trimStart (afterWord cs))).map fun (content, _) =>
    .node (String.ofList (leadingWord cs))
      (String.ofList (Text.trim (Quoting.ofContent content).inner))

def definition? (line : List Char) : Option Statement :=
  firstAtWord? definitionHere? false line

def connection? (line : List Char) : Option Statement :=
  (firstAtWord? (sourced? link?) false line).map fun (source, l) => .edge (l.edge source)

/-- The edge of a plain link: solid, directed and without label. -/
def plainEdge (source target : List Char) : Edge :=
  ⟨String.ofList source, String.ofList target, none, .solid, true⟩

def plainConnection? (line : List Char) : Option Statement :=
  (firstAtWord? (sourced? plainLink?) false line).map fun (source, target) =>
    .edge (plainEdge source target)

/-- The keyword of a subgraph, at least one blank and an id. -/
def subgraphHere? (cs : List Char) : Option (List Char) :=
  (Text.dropLead? "subgraph".toList cs).bind fun rest =>
    match rest with
    | c :: _ => if Text.isBlank c then word? (Text.trimStart rest) else none
    | [] => none

def subgraph? (line : List Char) : Option Statement :=
  (firstAnywhere? subgraphHere? line).map fun id => .subgraph (String.ofList id)

namespace Rule

/-- The rules in the order in which they are tried. -/
def all : List Rule := [nodeDefinition, connection, plainConnection, subgraph]

def apply : Rule → List Char → Option Statement
  | nodeDefinition => definition?
  | connection => connection?
  | plainConnection => plainConnection?
  | subgraph => subgraph?

end Rule

/-- The first rule that fits a line, with its statement. -/
def classify? (line : List Char) : Option (Rule × Statement) :=
  Rule.all.findSome? fun r => (r.apply line).map (r, ·)

end FlowchartSlides.Flowchart
