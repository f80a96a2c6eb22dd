import FlowchartSlides.Flowchart.Basic
import FlowchartSlides.Text.Blank

/-!
# Icons for node labels

An icon map gives nodes a short text that is shown before their label. Icons
are trimmed when they are looked up, and a blank one counts as none.
-/
namespace FlowchartSlides

/-- Icons by node id, in order of arrival. -/
abbrev IconMap := Table String

namespace IconMap

/-- A trimmed icon, or none when it is blank. -/
def present? (raw : String) : Option String :=
  let icon := Text.trimmed raw
  if icon.isEmpty then none else some icon

def icon? (icons : IconMap) (id : String) : Option String := (icons.get? id).bind present?

/-- The trimmed label with an icon before it; an empty label leaves the icon alone. -/
def decorate (label : String) (icon : Option String) : String :=
  let label := Text.trimmed label
  match icon with
  | none => label
  | some icon => if label.isEmpty then icon else icon ++ " " ++ label

/-- The text of the shape for a node. -/
def labelFor (icons : IconMap) (node : Node) : String := decorate node.label (icons.icon? node.id)

theorem decorate_none (label : String) : decorate label none = Text.trimmed label := rfl

end IconMap

end FlowchartSlides
