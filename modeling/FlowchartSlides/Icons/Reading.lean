import FlowchartSlides.Icons.Basic
import FlowchartSlides.Json.Reader

/-!
# Icon maps as documents

An icon map is an object from node ids to icons. Of a repeated id the last icon
counts, at the place of the first.
-/
namespace FlowchartSlides.IconMap

open Json (Fault Reader)

def readIcon (icons : IconMap) (id : String) : Reader IconMap := do
  Reader.colon
  return icons.insert id (← Reader.text "a string")

def read : Reader IconMap := do
  match ← Reader.start with
  | '{' =>
    Reader.advance
    Reader.fields readIcon ∅
  | _ => Reader.mismatch "a map"

def ofText (s : String) : Except Fault IconMap := Reader.run read s

end FlowchartSlides.IconMap
