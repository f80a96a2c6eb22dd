import FlowchartSlides.Icons.Basic
import FlowchartSlides.Flowchart.Group
import FlowchartSlides.Flowchart.Word

/-!
# Icons merged into flowchart text

For each mapped id in turn the text is read from left to right, and the group
after that id gets the icon before its trimmed label, inside its quotes. The id
has to stand at the start of a line or after a character of no word, and that
character must not belong to the definition decorated just before. All other
text stays.
-/
namespace FlowchartSlides.IconMap

open Flowchart (isIdChar group? Quoting)

/-- An id, blanks and a group at the start of a text: what stands before the
bracket, the content, and what follows the group. -/
def definition? (id cs : List Char) : Option (List Char × List Char × List Char) :=
  (Text.dropLead? id cs).bind fun rest =>
    (group? (Text.trimStart rest)).map fun (content, after) =>
      (id ++ rest.takeWhile Text.isBlank, content, after)

/-- A content with the icon before its trimmed label, inside its quotes. -/
def withIcon (icon content : List Char) : List Char :=
  let q := Quoting.ofContent content
  q.quote ++ icon ++ ' ' :: Text.trim q.inner ++ q.quote

theorem length_lt_of_group? {cs content rest : List Char} (h : group? cs = some (content, rest)) :
    rest.length < cs.length := by
  rw [Flowchart.eq_of_group? h]
  simp only [List.cons_append, List.length_cons, List.length_append]
  omega

theorem length_lt_of_definition? {id cs lead content rest : List Char}
    (h : definition? id cs = some (lead, content, rest)) : rest.length < cs.length := by
  unfold definition? at h
  obtain ⟨tail, hd, h⟩ := Option.bind_eq_some_iff.1 h
  obtain ⟨⟨c, r⟩, hg, h⟩ := Option.map_eq_some_iff.1 h
  obtain ⟨-, -, rfl⟩ := by simpa using h
  have hg := length_lt_of_group? hg
  have ht : (Text.trimStart tail).length ≤ tail.length := (List.dropWhile_suffix _).length_le
  rw [Text.eq_append_of_dropLead? hd]
  simp only [List.length_append]
  omega

/-- Decorates the definitions of one id. `atStart` says whether a definition may
begin right here, without a character before it. -/
def mergeOne (id icon : List Char) (atStart : Bool) (cs : List Char) : List Char :=
  match _here : if atStart then definition? id cs else none with
  | some (lead, content, rest) =>
    lead ++ '[' :: withIcon icon content ++ ']' :: mergeOne id icon false rest
  | none =>
    match cs with
    | [] => []
    | c :: rest =>
      match _next : if isIdChar c then none else definition? id rest with
      | some (lead, content, after) =>
        c :: lead ++ '[' :: withIcon icon content ++ ']' :: mergeOne id icon false after
      | none => c :: mergeOne id icon (c == '\n') rest
termination_by cs.length
decreasing_by
  · split at _here
    · exact length_lt_of_definition? _here
    · simp at _here
  · split at _next
    · simp at _next
    · have := length_lt_of_definition? _next
      simp only [List.length_cons]
      omega
  · simp

/-- Decorates the definitions of all mapped ids, one id after the other in the
order of the map; ids without an icon are passed over. -/
def mergeInto (icons : IconMap) (source : String) : String :=
  let decorateAll (text : List Char) (id : String) : List Char :=
    match icons.icon? id with
    | none => text
    | some icon => mergeOne id.toList icon.toList true text
  String.ofList (icons.keys.foldl decorateAll source.toList)

end FlowchartSlides.IconMap
