import FlowchartSlides.Text.Blank

/-!
# Words: the ids of nodes

An id is a nonempty word of ASCII letters, digits, underscores and dashes.
Rules that look for an id try the starts of the maximal words of a line from
left to right: a rule that fits from inside a word also fits from its start.
-/
namespace FlowchartSlides.Flowchart

def isIdChar (c : Char) : Bool := c.isAlphanum || c == '_' || c == '-'

/-- The word at the start of a text, possibly empty. -/
def leadingWord (cs : List Char) : List Char := cs.takeWhile isIdChar

/-- What follows the word at the start of a text. -/
def afterWord (cs : List Char) : List Char := cs.dropWhile isIdChar

theorem leadingWord_append_afterWord (cs : List Char) : leadingWord cs ++ afterWord cs = cs :=
  List.takeWhile_append_dropWhile

/-- The first answer of `rule` at the start of a maximal word, from left to
right. `inside` says whether the character before the text belongs to a word. -/
def firstAtWord? {α : Type} (rule : List Char → Option α) : (inside : Bool) → List Char → Option α
  | _, [] => none
  | inside, c :: cs =>
    if isIdChar c then
      if inside then firstAtWord? rule true cs
      else match rule (c :: cs) with
        | some a => some a
        | none => firstAtWord? rule true cs
    else firstAtWord? rule false cs

/-- The first answer of `rule` at any place, from left to right. -/
def firstAnywhere? {α : Type} (rule : List Char → Option α) : List Char → Option α
  | [] => rule []
  | c :: cs => match rule (c :: cs) with
    | some a => some a
    | none => firstAnywhere? rule cs

theorem isIdChar_dash : isIdChar '-' = true := by decide

section FirstAtWord

variable {α : Type} {rule : List Char → Option α} {c : Char} {cs : List Char}

@[simp] theorem firstAtWord?_nil (inside : Bool) : firstAtWord? rule inside [] = none := rfl

theorem firstAtWord?_gap (hc : isIdChar c = false) (inside : Bool) :
    firstAtWord? rule inside (c :: cs) = firstAtWord? rule false cs := by
  rw [firstAtWord?, hc]
  rfl

theorem firstAtWord?_inside (hc : isIdChar c = true) :
    firstAtWord? rule true (c :: cs) = firstAtWord? rule true cs := by
  rw [firstAtWord?, hc]
  rfl

/-- At the start of a word the rule is tried, and then the rest of the text. -/
theorem firstAtWord?_start (hc : isIdChar c = true) :
    firstAtWord? rule false (c :: cs) = (rule (c :: cs)).or (firstAtWord? rule true cs) := by
  rw [firstAtWord?, hc]
  cases rule (c :: cs) <;> rfl

end FirstAtWord

end FlowchartSlides.Flowchart
