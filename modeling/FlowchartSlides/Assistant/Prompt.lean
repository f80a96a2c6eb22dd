import FlowchartSlides.Assistant.Basic

/-!
# Requests to the model

A request has a fixed system text and a prompt that holds the source text. A
source text that is longer than the settings allow is cut, and the cut is
marked.
-/
namespace FlowchartSlides

structure ModelRequest where
  system : String
  prompt : String
  /-- whether the reply should be a bare object -/
  jsonReply : Bool
deriving Repr, DecidableEq

namespace ModelRequest

/-- The mark behind a text that has been cut. -/
def cutMark : String := "... (truncated)"

/-- The part of a text that is sent, and the mark when it is not all. -/
def excerpt (limit : Nat) (text : String) : String × String :=
  if text.length ≤ limit then (text, "")
  else (String.ofList (text.toList.take limit), cutMark)

/-- Asks for a flowchart of a text. -/
def forFlowchart (text : String) (settings : ModelSettings) : ModelRequest :=
  let (part, mark) := excerpt settings.maxInputChars text
  { system := "You turn documents into concise flowcharts."
    prompt :=
      "Create a flowchart that captures the main process, method or framework described "
        ++ "in the text below.\n\n"
        ++ "Text:\n" ++ part ++ " " ++ mark ++ "\n\n"
        ++ "Rules for the flowchart:\n"
        ++ "- Start with \x60flowchart TD\x60 or \x60flowchart LR\x60\n"
        ++ "- Define each node once as \x60Id[Label]\x60 on its own line\n"
        ++ "- Write each connection as \x60Id --> Id\x60 on its own line\n"
        ++ "- Keep it focused on the main steps\n\n"
        ++ "Reply with a JSON object of the form "
        ++ "\x7b\"mermaid\": \"flowchart TD\\n  A[Start]\\n  A --> B\", "
        ++ "\"summary\": \"two or three sentences\"\x7d"
    jsonReply := true }

/-- Asks for icons of the nodes of a flowchart text. -/
def forIcons (flowchart : String) : ModelRequest :=
  { system := "You suggest emojis that illustrate flowchart nodes."
    prompt :=
      "Suggest one emoji for every node of this flowchart.\n\n\x60\x60\x60\n" ++ flowchart
        ++ "\n\x60\x60\x60\n\n"
        ++ "Reply with a JSON object mapping node ids to emojis, for example "
        ++ "\x7b\"A\": \"🚀\", \"B\": \"📊\"\x7d"
    jsonReply := true }

end ModelRequest

end FlowchartSlides
