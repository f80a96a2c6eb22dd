import FlowchartSlides.Assistant.Prompt
import FlowchartSlides.Icons.Reading

/-!
# Replies of the model

A reply is free text that should hold a document, perhaps between the fences
of a code block. The text on the line of the opening fence is left out; a
reply of one line keeps it.
-/
namespace FlowchartSlides.Assistant

open Json (Fault Reader)
open Json.Reader (FieldRule)

def fence : List Char := ['\x60', '\x60', '\x60']

/-- What follows the first line feed; the whole text when there is none. -/
def afterFirstLine (cs : List Char) : List Char :=
  match cs.dropWhile (· != '\n') with
  | [] => cs
  | _ :: rest => rest

/-- A text without the fence at its end and the blanks behind it; without that
fence nothing is taken off. -/
def dropClosing (cs : List Char) : List Char :=
  match Text.dropLead? fence (Text.trimEnd cs).reverse with
  | some rest => rest.reverse
  | none => cs

/-- The content of a reply without the fences around it. -/
def unfenced (cs : List Char) : List Char :=
  let reply := Text.trim cs
  match Text.dropLead? fence reply with
  | none => reply
  | some rest => Text.trim (dropClosing (afterFirstLine rest))

/-- The parts of a draft that have been read. -/
structure DraftParts where
  mermaid : Option String := none
  summary : String := ""

def readDraft : Reader FlowchartDraft := do
  let fields : List (FieldRule DraftParts) :=
    [⟨"mermaid", fun p => return { p with mermaid := some (← Reader.text "a string") }⟩,
      ⟨"summary", fun p => return { p with summary := ← Reader.text "a string" }⟩]
  let parts ← Reader.record "struct FlowchartDraft" fields 1 {}
  match Reader.need "mermaid" parts.mermaid with
  | .ok mermaid => return ⟨mermaid, parts.summary⟩
  | .error f => Reader.fail f

/-- The draft in a reply. -/
def draftOfReply (reply : String) : Except Fault FlowchartDraft :=
  Reader.run readDraft (String.ofList (unfenced reply.toList))

/-- The icons in a reply. -/
def iconsOfReply (reply : String) : Except Fault IconMap :=
  IconMap.ofText (String.ofList (unfenced reply.toList))

end FlowchartSlides.Assistant
