import FlowchartSlides.Text.Blank

/-!
# Bracket groups and quoted labels

A group is an opening bracket, a nonempty content without brackets and a
closing bracket. A content of at least three characters that starts and ends
with the same quote is quoted: its label is what stands between the quotes.
-/
namespace FlowchartSlides.Flowchart

def isBracket (c : Char) : Bool := c == '[' || c == ']'

/-- The content of the group at the start of a text, and what follows the group. -/
def group? : List Char → Option (List Char × List Char)
  | '[' :: cs =>
    let content := cs.takeWhile (!isBracket ·)
    match content, cs.dropWhile (!isBracket ·) with
    | c :: content, ']' :: rest => some (c :: content, rest)
    | _, _ => none
  | _ => none

/-- The quotes around a content, none or one mark, and what they enclose. -/
structure Quoting where
  quote : List Char
  inner : List Char
deriving Repr, DecidableEq

/-- Takes the pair of quotes off when there is one with something in between. -/
def Quoting.ofContent : List Char → Quoting
  | [] => ⟨[], []⟩
  | q :: cs =>
    if (q == '"' || q == '\'') && decide (2 ≤ cs.length) && cs.getLast? == some q then
      ⟨[q], cs.dropLast⟩
    else ⟨[], q :: cs⟩

theorem eq_of_group? {cs content rest : List Char} (h : group? cs = some (content, rest)) :
    cs = '[' :: content ++ ']' :: rest := by
  unfold group? at h
  split at h
  next cs =>
    have split := List.takeWhile_append_dropWhile (p := (!isBracket ·)) (l := cs)
    revert h
    simp only
    split
    next c content' rest' hc hr =>
      intro h
      obtain ⟨rfl, rfl⟩ := by simpa using h
      rw [← split, hc, hr]
      rfl
    next => intro h; simp at h
  next => simp at h

/-- A content is its label between its quotes. -/
theorem Quoting.ofContent_eq (content : List Char) :
    (ofContent content).quote ++ (ofContent content).inner ++ (ofContent content).quote =
      content := by
  cases content with
  | nil => rfl
  | cons q cs =>
    by_cases h : ((q == '"' || q == '\'') && decide (2 ≤ cs.length) && cs.getLast? == some q) = true
    · have hne : cs ≠ [] := by rintro rfl; simp at h
      have hlast : cs.getLast hne = q := by
        simpa [List.getLast?_eq_some_getLast hne] using (Bool.and_eq_true_iff.1 h).2
      have hcs : cs.dropLast ++ [q] = cs := by rw [← hlast]; exact List.dropLast_concat_getLast hne
      simp only [ofContent, h, if_true]
      rw [List.append_assoc, hcs]
      rfl
    · simp only [ofContent, h]
      simp

end FlowchartSlides.Flowchart
