import FlowchartSlides.Decimal.Text

/-!
# Documents that are written

A document is a tree of the values that the export holds: numbers are either
integers or 32-bit numbers, and objects keep the order of their fields. It is
written on one line, or indented by two spaces a level.
-/
namespace FlowchartSlides.Json

inductive Document where
  | null
  | flag (value : Bool)
  | whole (value : Int)
  | single (value : Float32)
  | text (value : String)
  | list (items : List Document)
  | object (fields : List (String × Document))
deriving Inhabited

namespace Document

/-- A text, or null when there is none. -/
def ofText? : Option String → Document
  | some s => text s
  | none => null

/-- A 32-bit number, or null when there is none. -/
def ofSingle? : Option Float32 → Document
  | some x => single x
  | none => null

def texts (items : List String) : Document := list (items.map text)

/-- Lower-case hexadecimal digit. -/
def hexDigit (n : Nat) : Char := if n < 10 then Char.ofNat (48 + n) else Char.ofNat (87 + n)

/-- Only quotes, backslashes and control characters are escaped. -/
def escape (c : Char) : List Char :=
  if c = '"' then ['\\', '"']
  else if c = '\\' then ['\\', '\\']
  else if c = '\n' then ['\\', 'n']
  else if c = '\r' then ['\\', 'r']
  else if c = '\t' then ['\\', 't']
  else if c.toNat = 8 then ['\\', 'b']
  else if c.toNat = 12 then ['\\', 'f']
  else if c.toNat < 32 then
    ['\\', 'u', '0', '0', hexDigit (c.toNat / 16), hexDigit (c.toNat % 16)]
  else [c]

def quote (s : String) : String := "\"" ++ String.ofList (s.toList.flatMap escape) ++ "\""

/-- NaN and the infinities are written as null. -/
def singleText (x : Float32) : String := (Decimal.exported? x).getD "null"

mutual

/-- The document on one line without spaces. -/
def compact : Document → String
  | null => "null"
  | flag b => if b then "true" else "false"
  | whole n => toString n
  | single x => singleText x
  | text s => quote s
  | list items => "[" ++ compactItems items ++ "]"
  | object fields => "\x7b" ++ compactFields fields ++ "\x7d"

def compactItems : List Document → String
  | [] => ""
  | [d] => compact d
  | d :: ds => compact d ++ "," ++ compactItems ds

def compactFields : List (String × Document) → String
  | [] => ""
  | [(name, d)] => quote name ++ ":" ++ compact d
  | (name, d) :: fields => quote name ++ ":" ++ compact d ++ "," ++ compactFields fields

end

/-- A line end followed by the indentation of a level. -/
def lineBreak (level : Nat) : String := "\n" ++ String.ofList (List.replicate (2 * level) ' ')

mutual

/-- The document with one item or field a line, as a part of level `level`. -/
def prettyAt (level : Nat) : Document → String
  | null => "null"
  | flag b => if b then "true" else "false"
  | whole n => toString n
  | single x => singleText x
  | text s => quote s
  | list [] => "[]"
  | list (d :: ds) =>
    "[" ++ lineBreak (level + 1) ++ prettyAt (level + 1) d ++ prettyItems (level + 1) ds
      ++ lineBreak level ++ "]"
  | object [] => "\x7b\x7d"
  | object ((name, d) :: fields) =>
    "\x7b" ++ lineBreak (level + 1) ++ quote name ++ ": " ++ prettyAt (level + 1) d
      ++ prettyFields (level + 1) fields ++ lineBreak level ++ "\x7d"

def prettyItems (level : Nat) : List Document → String
  | [] => ""
  | d :: ds => "," ++ lineBreak level ++ prettyAt level d ++ prettyItems level ds

def prettyFields (level : Nat) : List (String × Document) → String
  | [] => ""
  | (name, d) :: fields =>
    "," ++ lineBreak level ++ quote name ++ ": " ++ prettyAt level d ++ prettyFields level fields

end

/-- The document indented by two spaces a level. -/
def pretty (d : Document) : String := prettyAt 0 d

end Document

end FlowchartSlides.Json
