/-!
# Lines of a text

A line ends at a line feed, which belongs to no line; one carriage return
directly before that line feed belongs to the line end too. A text that ends
with a line feed has no empty last line, and a last line without line feed
keeps a carriage return at its end.
-/
namespace FlowchartSlides.Text

/-- Drops one carriage return at the end, if there is one. -/
def dropReturn : List Char → List Char
  | [] => []
  | ['\r'] => []
  | c :: cs => c :: dropReturn cs

/-- The pieces between marks; a text without the mark is one piece. -/
def split (mark : Char) : List Char → List (List Char)
  | [] => [[]]
  | c :: cs =>
    if c = mark then [] :: split mark cs
    else match split mark cs with
      | [] => [[c]]
      | p :: ps => (c :: p) :: ps

/-- Lines from pieces: every piece but the last ended at a line feed. -/
def linesOfPieces : List (List Char) → List (List Char)
  | [] => []
  | [last] => if last.isEmpty then [] else [last]
  | p :: ps => dropReturn p :: linesOfPieces ps

def lines (cs : List Char) : List (List Char) := linesOfPieces (split '\n' cs)

/-- Lines joined by single line feeds. -/
def unlines (ls : List (List Char)) : List Char := List.intercalate ['\n'] ls

theorem split_ne_nil (mark : Char) (cs : List Char) : split mark cs ≠ [] := by
  induction cs with
  | nil => simp [split]
  | cons c cs ih =>
    unfold split
    split
    · simp
    · split <;> simp

theorem split_of_not_mem {mark : Char} {cs : List Char} (h : mark ∉ cs) :
    split mark cs = [cs] := by
  induction cs with
  | nil => rfl
  | cons c cs ih =>
    simp only [List.mem_cons, not_or] at h
    simp only [split, if_neg (Ne.symm h.1), ih h.2]

/-- The text before the first mark is the first piece. -/
theorem split_append {mark : Char} {cs : List Char} (h : mark ∉ cs) (rest : List Char) :
    split mark (cs ++ mark :: rest) = cs :: split mark rest := by
  induction cs with
  | nil => simp [split]
  | cons c cs ih =>
    simp only [List.mem_cons, not_or] at h
    simp only [List.cons_append, split, if_neg (Ne.symm h.1), ih h.2]

theorem lines_nil : lines [] = [] := rfl

end FlowchartSlides.Text
