import FlowchartSlides.Text.Shapeless

/-!
# Quoted texts in messages

A message shows a text between double quotes. Quotes, backslashes and the
common control characters are written as a backslash and a letter, other
characters without a shape of their own by their code point in braces.
-/
namespace FlowchartSlides.Text

/-- A character inside quotes. -/
def showChar (c : Char) : List Char :=
  if c = '"' then ['\\', '"']
  else if c = '\\' then ['\\', '\\']
  else if c = '\n' then ['\\', 'n']
  else if c = '\r' then ['\\', 'r']
  else if c = '\t' then ['\\', 't']
  else if c.toNat = 0 then ['\\', '0']
  else if isShapeless c then '\\' :: 'u' :: '\x7b' :: Nat.toDigits 16 c.toNat ++ ['\x7d']
  else [c]

/-- A text between double quotes. -/
def quoted (s : String) : String := "\"" ++ String.ofList (s.toList.flatMap showChar) ++ "\""

end FlowchartSlides.Text
