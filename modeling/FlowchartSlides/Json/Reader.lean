import FlowchartSlides.Json.Number

/-!
# Readers

A reader takes a value of one kind off the front of a text or stops with the
first fault from left to right. A value of the wrong kind is reported where it
stands, after it has been read as far as the report needs. Values of unknown
fields are skipped under a looser grammar and to any depth.
-/
namespace FlowchartSlides.Json

/-- Reads from the front of the rest of a text. -/
abbrev Reader (α : Type) := StateT (List Char) (Except Fault) α

namespace Reader

variable {α σ : Type}

def fail (f : Fault) : Reader α := fun _ => .error f

def isSpace (c : Char) : Bool := c == ' ' || c == '\n' || c == '\t' || c == '\r'

/-- The next character that is no white space, which is not consumed. -/
def peek : Reader (Option Char) := fun cs =>
  let rest := cs.dropWhile isSpace
  .ok (rest.head?, rest)

/-- Leaves one character behind. -/
def advance : Reader Unit := fun cs => .ok ((), cs.drop 1)

/-- An upper bound for the steps of a loop over the rest of the text. -/
def bound : Reader Nat := fun cs => .ok (cs.length + 1, cs)

/-! ## Words, numbers and texts -/

/-- The remaining characters of a word such as `null`. -/
def word : List Char → Reader Unit
  | [] => pure ()
  | w :: ws => fun cs =>
    match cs with
    | [] => .error (.ended .value)
    | c :: rest => if c = w then word ws rest else .error .noWord

def number : Reader Number := Number.read

def hexValue? (c : Char) : Option Nat :=
  if c.isDigit then some (c.toNat - 48)
  else if 'a' ≤ c ∧ c ≤ 'f' then some (c.toNat - 87)
  else if 'A' ≤ c ∧ c ≤ 'F' then some (c.toNat - 55)
  else none

/-- The bytes that a text takes in UTF-8. -/
def byteCount (cs : List Char) : Nat := cs.foldl (fun n c => n + c.utf8Size) 0

/-- Four hexadecimal digits; the text has to go on for four bytes at least. -/
def hexUnit : Reader Nat := fun cs =>
  match cs with
  | a :: b :: c :: d :: rest =>
    match hexValue? a, hexValue? b, hexValue? c, hexValue? d with
    | some a, some b, some c, some d => .ok (((a * 16 + b) * 16 + c) * 16 + d, rest)
    | _, _, _, _ => .error .badEscape
  | short => .error (if byteCount short < 4 then .ended .text else .badEscape)

/-- One given character inside a pair of surrogates. -/
def pairMark (mark : Char) : Reader Unit := fun cs =>
  match cs with
  | [] => .error (.ended .text)
  | c :: rest => if c = mark then .ok ((), rest) else .error .brokenSurrogatePair

/-- The character of a `\u` escape, which may need a second one. -/
def unicodeEscape : Reader Char := do
  let n ← hexUnit
  if 0xDC00 ≤ n ∧ n ≤ 0xDFFF then fail .loneSurrogate
  else if n < 0xD800 ∨ 0xDBFF < n then return Char.ofNat n
  else
    pairMark '\\'
    pairMark 'u'
    let m ← hexUnit
    if m < 0xDC00 ∨ 0xDFFF < m then fail .loneSurrogate
    else return Char.ofNat (0x10000 + (n - 0xD800) * 0x400 + (m - 0xDC00))

/-- The character for the letter of a short escape. -/
def shortEscape? : Char → Option Char
  | '"' => some '"'
  | '\\' => some '\\'
  | '/' => some '/'
  | 'b' => some (Char.ofNat 8)
  | 'f' => some (Char.ofNat 12)
  | 'n' => some '\n'
  | 'r' => some '\r'
  | 't' => some '\t'
  | _ => none

/-- The character of an escape, after its backslash. -/
def escape : Reader Char := fun cs =>
  match cs with
  | [] => .error (.ended .text)
  | 'u' :: rest => unicodeEscape rest
  | c :: rest => match shortEscape? c with
    | some e => .ok (e, rest)
    | none => .error .badEscape

/-- The rest of a text value up to its closing quote. -/
def textBody : (fuel : Nat) → Reader (List Char)
  | 0 => fail (.ended .text)
  | fuel + 1 => fun cs =>
    match cs with
    | [] => .error (.ended .text)
    | '"' :: rest => .ok ([], rest)
    | '\\' :: rest => do
      let (c, rest) ← escape rest
      let (tail, rest) ← textBody fuel rest
      return (c :: tail, rest)
    | c :: rest =>
      if c.toNat < 32 then .error .controlCharacter
      else do
        let (tail, rest) ← textBody fuel rest
        return (c :: tail, rest)

/-- A text value at its opening quote. -/
def quotedText : Reader String := do
  advance
  let fuel ← bound
  return String.ofList (← textBody fuel)

/-! ## Values of the wrong kind -/

/-- Stops at the value that comes next, because another kind is expected. Simple
values are read before they are reported, so a fault inside them comes first. -/
def mismatch (expected : String) : Reader α := do
  match ← peek with
  | some 'n' => advance; word "ull".toList; fail (.wrongType .null expected)
  | some 't' => advance; word "rue".toList; fail (.wrongType (.flag true) expected)
  | some 'f' => advance; word "alse".toList; fail (.wrongType (.flag false) expected)
  | some '"' => do fail (.wrongType (.text (← quotedText)) expected)
  | some '[' => fail (.wrongType .list expected)
  | some '{' => fail (.wrongType .object expected)
  | some c =>
    if c = '-' ∨ c.isDigit then do fail (.wrongType (← number).found expected)
    else fail .noValue
  | none => fail .noValue

/-- Whether a value comes next, and with which character it starts. -/
def start : Reader Char := do
  match ← peek with
  | some c => return c
  | none => fail (.ended .value)

def text (expected : String) : Reader String := do
  if (← start) = '"' then quotedText else mismatch expected

def isNumberStart (c : Char) : Bool := c == '-' || c.isDigit

def single : Reader Float32 := do
  if isNumberStart (← start) then return (← number).toSingle else mismatch "f32"

/-- An integer that is not negative. -/
def natural : Reader Nat := do
  if isNumberStart (← start) then
    match ← number with
    | .whole n => if n < 0 then fail (.wrongValue (.whole n) "usize") else return n.toNat
    | .real x => fail (.wrongType (.real x) "usize")
  else mismatch "usize"

/-- A value, or nothing where `null` stands. -/
def optional (value : Reader α) : Reader (Option α) := do
  match ← peek with
  | some 'n' => advance; word "ull".toList; return none
  | _ => return some (← value)

/-! ## Lists and objects -/

/-- Moves to the next item of a list; false at its end. -/
def nextItem (first : Bool) : Reader Bool := do
  match ← peek with
  | none => fail (.ended .list)
  | some ']' => return false
  | some ',' =>
    if first then return true
    else
      advance
      match ← peek with
      | some ']' => fail .trailingComma
      | some _ => return true
      | none => fail (.ended .value)
  | some _ => if first then return true else fail .noItemEnd

/-- The end of a list. -/
def endList : Reader Unit := do
  match ← peek with
  | some ']' => advance
  | some ',' =>
    advance
    match ← peek with
    | some ']' => fail .trailingComma
    | _ => fail .trailingCharacters
  | some _ => fail .trailingCharacters
  | none => fail (.ended .list)

/-- Reads the key of the next field of an object; none at its end. -/
def nextKey (first : Bool) : Reader (Option String) := do
  match ← peek with
  | none => fail (.ended .object)
  | some '}' => return none
  | some c =>
    if first then
      if c = '"' then return some (← quotedText) else fail .keyNotText
    else if c = ',' then
      advance
      match ← peek with
      | some '"' => return some (← quotedText)
      | some '}' => fail .trailingComma
      | some _ => fail .keyNotText
      | none => fail (.ended .value)
    else fail .noFieldEnd

/-- The end of an object. -/
def endObject : Reader Unit := do
  match ← peek with
  | some '}' => advance
  | some ',' => fail .trailingComma
  | some _ => fail .trailingCharacters
  | none => fail (.ended .object)

/-- The colon between a key and its value. -/
def colon : Reader Unit := do
  match ← peek with
  | some ':' => advance
  | some _ => fail .noColon
  | none => fail (.ended .object)

/-- The items that are left in a list. -/
def itemsFrom (item : Reader α) : (fuel : Nat) → (first : Bool) → Reader (List α)
  | 0, _ => return []
  | fuel + 1, first => do
    if ← nextItem first then
      let a ← item
      return a :: (← itemsFrom item fuel false)
    else return []

/-- All items of a list whose opening bracket has been read, and its end. -/
def items (item : Reader α) (first : Bool) : Reader (List α) := do
  let fuel ← bound
  let as ← itemsFrom item fuel first
  endList
  return as

/-- Reads the fields that are left in an object, each by `field` from what has
been read before and its key. -/
def fieldsFrom (field : σ → String → Reader σ) : (fuel : Nat) → (first : Bool) → σ → Reader σ
  | 0, _, s => return s
  | fuel + 1, first, s => do
    match ← nextKey first with
    | some key => fieldsFrom field fuel false (← field s key)
    | none => return s

/-- All fields of an object whose opening brace has been read, and its end. -/
def fields (field : σ → String → Reader σ) (s : σ) : Reader σ := do
  let fuel ← bound
  let s ← fieldsFrom field fuel true s
  endObject
  return s

/-! ## Skipping -/

/-- What follows the backslash in a text that is skipped: surrogates may stand alone. -/
def skipEscape : Reader Unit := fun cs =>
  match cs with
  | [] => .error (.ended .text)
  | 'u' :: rest => do
    let (_, rest) ← hexUnit rest
    return ((), rest)
  | c :: rest => if (shortEscape? c).isSome then .ok ((), rest) else .error .badEscape

def skipTextBody : (fuel : Nat) → Reader Unit
  | 0 => fail (.ended .text)
  | fuel + 1 => fun cs =>
    match cs with
    | [] => .error (.ended .text)
    | '"' :: rest => .ok ((), rest)
    | '\\' :: rest => do
      let (_, rest) ← skipEscape rest
      skipTextBody fuel rest
    | c :: rest => if c.toNat < 32 then .error .controlCharacter else skipTextBody fuel rest

def skipText : Reader Unit := do
  advance
  skipTextBody (← bound)

/-- Digits, at least one. -/
def skipDigits : Reader Unit := fun cs =>
  match cs with
  | c :: _ => if c.isDigit then .ok ((), cs.dropWhile Char.isDigit) else .error .badNumber
  | [] => .error .badNumber

def skipExponent : Reader Unit := fun cs =>
  match cs with
  | c :: rest =>
    if c = 'e' ∨ c = 'E' then
      match rest with
      | s :: after => if s = '+' ∨ s = '-' then skipDigits after else skipDigits rest
      | [] => skipDigits []
    else .ok ((), cs)
  | [] => .ok ((), [])

/-- A number after its sign. -/
def skipUnsigned : Reader Unit := fun cs => do
  let ((), rest) ← match cs with
    | '0' :: rest =>
      if rest.head?.any Char.isDigit then .error Fault.badNumber else .ok ((), rest)
    | _ => skipDigits cs
  match rest with
  | '.' :: after =>
    let ((), rest) ← skipDigits after
    skipExponent rest
  | _ => skipExponent rest

/-- Moves to the next item of a list that is skipped. -/
def skipToItem (first : Bool) : Reader Bool := do
  match ← peek with
  | none => fail (.ended .list)
  | some ']' => advance; return false
  | some c =>
    if first then return true
    else if c = ',' then advance; return true
    else fail .noItemEnd

/-- Moves to the next field of an object that is skipped. -/
def skipToField (first : Bool) : Reader Bool := do
  match ← peek with
  | none => fail (.ended .object)
  | some '}' => advance; return false
  | some c =>
    if first then return true
    else if c = ',' then advance; return true
    else fail .noFieldEnd

def skipItems (item : Reader Unit) : (fuel : Nat) → (first : Bool) → Reader Unit
  | 0, _ => return ()
  | fuel + 1, first => do
    if ← skipToItem first then
      item
      skipItems item fuel false
    else return ()

def skipFields (value : Reader Unit) : (fuel : Nat) → (first : Bool) → Reader Unit
  | 0, _ => return ()
  | fuel + 1, first => do
    if ← skipToField first then
      match ← peek with
      | some '"' => skipText
      | some _ => fail .keyNotText
      | none => fail (.ended .object)
      colon
      value
      skipFields value fuel false
    else return ()

/-- A value of any kind; `depth` bounds its nesting. -/
def skipValue : (depth : Nat) → Reader Unit
  | 0 => fail .tooDeep
  | depth + 1 => do
    match ← start with
    | 'n' => advance; word "ull".toList
    | 't' => advance; word "rue".toList
    | 'f' => advance; word "alse".toList
    | '"' => skipText
    | '[' => advance; skipItems (skipValue depth) (← bound) true
    | '{' => advance; skipFields (skipValue depth) (← bound) true
    | '-' => advance; skipUnsigned
    | c => if c.isDigit then skipUnsigned else fail .noValue

/-- A value of any kind and depth. -/
def skip : Reader Unit := do skipValue (← bound)

/-! ## Records -/

/-- One field of a record: its name, and how its value is read into what has
been read before. -/
structure FieldRule (σ : Type) where
  name : String
  read : σ → Reader σ

/-- One field of an object that stands for a record: `seen` are the names of the
known fields before it. -/
def recordField (known : List (FieldRule σ)) (seen : List String × σ) (key : String) :
    Reader (List String × σ) := do
  match known.find? (·.name == key) with
  | some f =>
    if seen.1.contains key then fail (.repeatedField key)
    else
      colon
      return (key :: seen.1, ← f.read seen.2)
  | none =>
    colon
    skip
    return seen

/-- The items of a list that stands for a record, in the order of its fields; it
may stop after `least` of them. -/
def recordItems (expected : String) (least : Nat) :
    (place : Nat) → List (FieldRule σ) → σ → Reader σ
  | _, [], s => return s
  | place, f :: fs, s => do
    if ← nextItem (place == 0) then recordItems expected least (place + 1) fs (← f.read s)
    else if least ≤ place then return s
    else fail (.wrongLength place expected)

/-- A record as an object with its fields in any order, or as a list with them
in the given order, of which `least` must be there. -/
def record (title : String) (known : List (FieldRule σ)) (least : Nat) (s : σ) : Reader σ := do
  match ← start with
  | '[' =>
    advance
    let s ← recordItems (title ++ " with " ++ toString known.length ++ " elements") least 0 known s
    endList
    return s
  | '{' =>
    advance
    return (← fields (recordField known) ([], s)).2
  | _ => mismatch title

/-- The value of a field that has to be there. -/
def need (name : String) : Option α → Except Fault α
  | some a => .ok a
  | none => .error (.missingField name)

/-- Reads a text as one value with nothing but white space after it. -/
def run (value : Reader α) (s : String) : Except Fault α := do
  let (a, rest) ← value s.toList
  if (rest.dropWhile isSpace).isEmpty then return a else throw .trailingCharacters

end Reader

end FlowchartSlides.Json
