import FlowchartSlides.Decimal.Text
import FlowchartSlides.Slide.Canvas

/-!
# Notices

Problems that do not stop a run are noted and passed over. A notice is a value;
its wording is in `Notice.message` alone.
-/
namespace FlowchartSlides

inductive Severity where
  | warning
  | information
deriving Repr, DecidableEq

def Severity.name : Severity → String
  | warning => "WARN"
  | information => "INFO"

inductive Notice where
  | skippedEdge (source target : String)
  | unknownTarget (command id : String)
  | negativeSize (id : String) (width height : Float32)
  | adjusted (applied unknown : Nat)
deriving Repr

namespace Notice

def severity : Notice → Severity
  | adjusted _ _ => .information
  | _ => .warning

def message : Notice → String
  | skippedEdge source target =>
    "skipping connection " ++ source ++ " -> " ++ target ++ ": "
      ++ MissingEndpoint.message ⟨source, target⟩
  | unknownTarget command id =>
    "adjustment " ++ command ++ " targets unknown element " ++ id ++ "; ignored"
  | negativeSize id width height =>
    "resizeNode " ++ id ++ ": negative size " ++ Decimal.noticed width ++ "x"
      ++ Decimal.noticed height ++ " clamped to zero"
  | adjusted applied unknown =>
    "applied " ++ toString applied ++ " adjustments, " ++ toString unknown
      ++ " aimed at unknown ids"

end Notice

/-- The notices of a build, one per edge left out. -/
def BuildSummary.notices (s : BuildSummary) : List Notice :=
  s.skipped.map fun (source, target) => .skippedEdge source target

end FlowchartSlides
