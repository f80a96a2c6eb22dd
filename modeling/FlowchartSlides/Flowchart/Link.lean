import FlowchartSlides.Flowchart.Basic
import FlowchartSlides.Flowchart.Word

/-!
# Links

A link is an id, blanks, an arrow, an optional text between bars, plain spaces
and an id. The kinds of arrows are tried in a fixed order, and an arrow counts
only when a target follows it. Of the sources that start at one place the
longest one with a link after it is taken.
-/
namespace FlowchartSlides.Flowchart

/-- What follows an arrow: the text between bars, if any, and the target. -/
structure LinkEnd where
  barText : Option (List Char)
  target : List Char
deriving Repr, DecidableEq

/-- An arrow with what follows it. -/
structure Link where
  arrow : List Char
  ending : LinkEnd
deriving Repr, DecidableEq

/-- A nonempty word at the start of a text. -/
def word? (cs : List Char) : Option (List Char) :=
  match leadingWord cs with
  | [] => none
  | w => some w

/-- The text between two bars at the start of a text, and what follows them. -/
def bars? : List Char → Option (List Char × List Char)
  | '|' :: cs =>
    match cs.dropWhile (· != '|') with
    | '|' :: rest => some (cs.takeWhile (· != '|'), rest)
    | _ => none
  | _ => none

def dropSpaces (cs : List Char) : List Char := cs.dropWhile (· == ' ')

/-- What an arrow needs behind it: perhaps a text between bars, then plain
spaces and the target. -/
def linkEnd? (cs : List Char) : Option LinkEnd :=
  match bars? cs with
  | some (text, rest) => (word? (dropSpaces rest)).map (⟨some text, ·⟩)
  | none => (word? (dropSpaces cs)).map (⟨none, ·⟩)

/-- A fixed arrow at the start of a text. -/
def fixedArrow? (arrow cs : List Char) : Option Link :=
  (Text.dropLead? arrow cs).bind fun rest => (linkEnd? rest).map (⟨arrow, ·⟩)

/-- Two dashes, a text without dashes, and `->`. -/
def dashedText? (cs : List Char) : Option Link :=
  (Text.dropLead? ['-', '-'] cs).bind fun rest =>
    let text := rest.takeWhile (· != '-')
    (Text.dropLead? ['-', '>'] (rest.dropWhile (· != '-'))).bind fun rest =>
      (linkEnd? rest).map (⟨'-' :: '-' :: text ++ ['-', '>'], ·⟩)

/-- The longest nonempty text within one line that is followed by `mark`, `>`
and the end of a link. -/
def spanTo? (mark : Char) : List Char → Option (List Char × LinkEnd)
  | [] => none
  | c :: cs =>
    if c = '\n' then none
    else match spanTo? mark cs with
      | some (text, ending) => some (c :: text, ending)
      | none =>
        (Text.dropLead? [mark, '>'] cs).bind fun rest => (linkEnd? rest).map (([c], ·))

/-- An arrow that starts with `mark`, ends with `mark` and `>`, and has any
nonempty text of one line in between. -/
def spanningArrow? (mark : Char) (cs : List Char) : Option Link :=
  (Text.dropLead? [mark] cs).bind fun rest =>
    (spanTo? mark rest).map fun (text, ending) => ⟨mark :: text ++ [mark, '>'], ending⟩

/-- The link at the start of a text, by the first kind of arrow that fits. -/
def link? (cs : List Char) : Option Link :=
  dashedText? cs
    <|> fixedArrow? ['-', '-', '>'] cs
    <|> fixedArrow? ['=', '=', '>'] cs
    <|> spanningArrow? '-' cs
    <|> spanningArrow? '=' cs

/-- The plain link: `-->` with any blanks before the target. -/
def plainLink? (cs : List Char) : Option (List Char) :=
  (Text.dropLead? ['-', '-', '>'] cs).bind fun rest => word? (Text.trimStart rest)

/-- The longest source at the start of a text with an answer of `rule` after it
and after blanks. -/
def sourced? {α : Type} (rule : List Char → Option α) : List Char → Option (List Char × α)
  | [] => none
  | c :: cs =>
    if isIdChar c then
      match sourced? rule cs with
      | some (source, a) => some (c :: source, a)
      | none => (rule (Text.trimStart cs)).map (([c], ·))
    else none

def isArrowLead (c : Char) : Bool := c == '-' || c == '=' || c == '.'

def isArrowTrail (c : Char) : Bool := isArrowLead c || c == '>'

/-- The text between the marks of an arrow. -/
def arrowText (arrow : List Char) : List Char :=
  Text.trim (((arrow.dropWhile isArrowLead).reverse.dropWhile isArrowTrail).reverse)

/-- The label of a link: the text between bars when there are bars, otherwise
the text inside the arrow; blank texts are no label. -/
def Link.label (l : Link) : Option (List Char) :=
  match (l.ending.barText.map Text.trim).getD (arrowText l.arrow) with
  | [] => none
  | text => some text

/-- Arrows of `=` are thick; of the others those with a dot next to the first or
before the last dash are dotted. -/
def arrowStyle (arrow : List Char) : EdgeStyle :=
  if ['='].isPrefixOf arrow then .thick
  else if ['-', '.'].isPrefixOf arrow || ['.', '-', '>'].isSuffixOf arrow then .dotted
  else .solid

def Link.edge (source : List Char) (l : Link) : Edge :=
  { source := String.ofList source
    target := String.ofList l.ending.target
    label := l.label.map String.ofList
    style := arrowStyle l.arrow
    directed := l.arrow.getLast? == some '>' }

end FlowchartSlides.Flowchart
