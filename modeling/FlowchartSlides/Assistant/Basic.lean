/-!
# The assistant that drafts flowcharts

A language model is asked for a flowchart, or for icons, with a request of two
texts. This module holds what such a request is made from.
-/
namespace FlowchartSlides

/-- How the model is reached, and how much text it is sent. -/
structure ModelSettings where
  apiUrl : String
  model : String
  apiKey : Option String
  /-- characters of the source text beyond this number are cut -/
  maxInputChars : Nat
deriving Repr

def ModelSettings.standard : ModelSettings where
  apiUrl := "https://openrouter.ai/api/v1"
  model := "google/gemini-2.5-flash-lite"
  apiKey := none
  maxInputChars := 10000

instance : Inhabited ModelSettings := ⟨.standard⟩

/-- A flowchart text and a summary, as the model drafts them. -/
structure FlowchartDraft where
  mermaid : String
  summary : String
deriving Repr, DecidableEq

end FlowchartSlides
