import FlowchartSlides.CommandLine.Arguments
import FlowchartSlides.CommandLine.File
import FlowchartSlides.CommandLine.Markdown
import FlowchartSlides.Deck
import FlowchartSlides.Settings.Reading
import FlowchartSlides.Slide.Command
import FlowchartSlides.Icons.Reading

/-!
# Runs

A run reads the settings, the flowchart, the icons and the adjustments in this
order and stops at the first that fails. What it makes is a text; where that
goes is decided afterwards.
-/
namespace FlowchartSlides.CommandLine

/-- Why a run fails. -/
inductive Failure where
  | unreadableSettings (path : String) (fault : FileFault)
  | badSettings (path : String) (why : Settings.Refusal)
  | unreadable (path : String) (fault : FileFault)
  | unreadableInput (fault : FileFault)
  | noFlowchart
  | badIcons (path : String) (fault : Json.Fault)
  | badAdjustments (path : String) (fault : Json.Fault)
  | missingEndpoint (endpoint : MissingEndpoint)
  | unwritable (path : String) (fault : FileFault)

/-- A message that gives its cause within the text and again behind it. -/
def withCause (text cause : String) : String := text ++ ": " ++ cause ++ ": " ++ cause

def Failure.message : Failure → String
  | unreadableSettings path fault => "reading config " ++ path ++ ": " ++ fault.message
  | badSettings path why => "parsing config " ++ path ++ ": " ++ why.message
  | unreadable path fault => "reading " ++ path ++ ": " ++ fault.message
  | unreadableInput fault => "reading flowchart from stdin: " ++ fault.message
  | noFlowchart => "No Mermaid diagrams found in input"
  | badIcons path fault =>
    "loading icons from " ++ path ++ ": " ++ withCause "invalid icon mapping" fault.message
  | badAdjustments path fault =>
    "loading adjustments from " ++ path ++ ": "
      ++ withCause "invalid adjustment commands" fault.message
  | missingEndpoint endpoint => endpoint.message
  | unwritable path fault => "writing " ++ path ++ ": " ++ fault.message

/-- What a run makes, and the notices on the way. -/
structure Rendering where
  text : String
  notices : List Notice

namespace Host

def file (host : Host) (path : String) : Except Failure String :=
  (host.text path).mapError (.unreadable path)

def settings (host : Host) : Option String → Except Failure Settings
  | none => .ok .standard
  | some path => do
    let text ← (host.text path).mapError (.unreadableSettings path)
    (Settings.ofText text).mapError (.badSettings path)

/-- The flowchart in a file: Markdown holds it in its first closed block. -/
def fileSource (host : Host) (path : String) : Except Failure String := do
  let text ← host.file path
  if Path.isMarkdown path then
    match Markdown.blocks text.toList with
    | block :: _ => return String.ofList block
    | [] => throw .noFlowchart
  else return text

/-- The flowchart that a run starts from. -/
def source (host : Host) : Option String → Except Failure String
  | none => host.standardInput.mapError .unreadableInput
  | some path =>
    if Path.isDash path then host.standardInput.mapError .unreadableInput
    else host.fileSource path

def icons (host : Host) : Option String → Except Failure IconMap
  | none => .ok ∅
  | some path => do (IconMap.ofText (← host.file path)).mapError (.badIcons path)

def adjustments (host : Host) : Option String → Except Failure (List Adjustment)
  | none => .ok []
  | some path => do (Adjustment.ofText (← host.file path)).mapError (.badAdjustments path)

end Host

/-- Adjusts a canvas. Where there are adjustments, a notice counts them. -/
def adjusted (canvas : Canvas) (commands : List Adjustment) :
    Except Failure (Canvas × List Notice) :=
  if commands.isEmpty then .ok (canvas, [])
  else
    let run := canvas.adjust commands
    match run.outcome with
    | .ok report =>
      .ok (run.canvas, run.notices ++ [.adjusted report.applied report.unknownIds.length])
    | .error endpoint => .error (.missingEndpoint endpoint)

/-- The export of the one canvas with the flowchart. -/
def snapshot (source : String) (icons : IconMap) (commands : List Adjustment)
    (settings : Settings) : Except Failure Rendering := do
  let (canvas, built) := Canvas.ofFlowchart source icons settings
  let (canvas, changed) ← adjusted canvas commands
  return ⟨canvas.exported.pretty, built ++ changed⟩

/-- The primitives of the presentation; adjustments are for its flowchart. -/
def primitives (draft : FlowchartDraft) (icons : IconMap) (commands : List Adjustment)
    (settings : Settings) : Except Failure Rendering := do
  let (deck, built) := Deck.ofDraft draft icons settings
  match deck.flowchart? with
  | none => return ⟨deck.document.pretty, built⟩
  | some canvas =>
    let (canvas, changed) ← adjusted canvas commands
    return ⟨(deck.setFlowchart canvas).document.pretty, built ++ changed⟩

/-- All of a run but the writing. -/
def render (a : Arguments) (host : Host) : Except Failure Rendering := do
  let settings ← host.settings a.settings
  let source ← host.source a.input
  let icons ← host.icons a.icons
  let commands ← host.adjustments a.adjustments
  match a.product with
  | .dsl => return ⟨icons.mergeInto source, []⟩
  | .snapshot => snapshot source icons commands settings
  | .primitives => primitives ⟨source, a.summary.getD ""⟩ icons commands settings

/-- A text on standard output ends with a line feed. -/
def printed (text : String) : String :=
  if text.toList.getLast? = some '\n' then text else text ++ "\n"

/-- Where the text of a run went. -/
structure Delivery where
  printed : String
  written : Option String
  notices : List Notice

/-- The end of a run, when writing to the output file, if there is one, is
hindered or not. -/
def deliver (a : Arguments) (r : Rendering) (hindrance? : String → Option FileFault) :
    Except Failure Delivery :=
  match a.output with
  | none => .ok ⟨printed r.text, none, r.notices⟩
  | some path => match hindrance? path with
    | none => .ok ⟨"", some r.text, r.notices⟩
    | some fault => .error (.unwritable path fault)

end FlowchartSlides.CommandLine
