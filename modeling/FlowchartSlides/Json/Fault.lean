import FlowchartSlides.Decimal.Text
import FlowchartSlides.Text.Quoted

/-!
# What can be wrong with a document

A fault is a cause; its wording is in `Fault.message` alone. Faults carry no
positions.
-/
namespace FlowchartSlides.Json

/-- What was being read when the text ended. -/
inductive Region where
  | value
  | list
  | object
  | text
deriving Repr, DecidableEq

def Region.phrase : Region → String
  | value => "a value"
  | list => "a list"
  | object => "an object"
  | text => "a string"

/-- A value that stands where another kind of value belongs. -/
inductive Found where
  | null
  | flag (value : Bool)
  | whole (value : Int)
  | real (value : Float)
  | text (value : String)
  | list
  | object

def Found.phrase : Found → String
  | null => "null"
  | flag b => "boolean \x60" ++ (if b then "true" else "false") ++ "\x60"
  | whole n => "integer \x60" ++ toString n ++ "\x60"
  | real x => "floating point \x60" ++ Decimal.quoted x ++ "\x60"
  | text s => "string " ++ Text.quoted s
  | list => "sequence"
  | object => "map"

inductive Fault where
  | ended (inside : Region)
  | noValue
  | noWord
  | noColon
  | noFieldEnd
  | noItemEnd
  | trailingComma
  | trailingCharacters
  | keyNotText
  | badNumber
  | numberTooLarge
  | badEscape
  | brokenSurrogatePair
  | loneSurrogate
  | controlCharacter
  | tooDeep
  | missingField (name : String)
  | repeatedField (name : String)
  | unknownVariant (given : String) (known : List String)
  | wrongLength (length : Nat) (expected : String)
  | wrongType (found : Found) (expected : String)
  | wrongValue (found : Found) (expected : String)

/-- A name in the quotes that messages use. -/
def ticked (name : String) : String := "\x60" ++ name ++ "\x60"

/-- The known names of a choice: two are joined by a word, more are listed. -/
def choice : List String → String
  | [] => "there are no variants"
  | [a] => "expected " ++ ticked a
  | [a, b] => "expected " ++ ticked a ++ " or " ++ ticked b
  | names => "expected one of " ++ String.intercalate ", " (names.map ticked)

def Fault.message : Fault → String
  | ended inside => "EOF while parsing " ++ inside.phrase
  | noValue => "expected value"
  | noWord => "expected ident"
  | noColon => "expected \x60:\x60"
  | noFieldEnd => "expected \x60,\x60 or \x60\x7d\x60"
  | noItemEnd => "expected \x60,\x60 or \x60]\x60"
  | trailingComma => "trailing comma"
  | trailingCharacters => "trailing characters"
  | keyNotText => "key must be a string"
  | badNumber => "invalid number"
  | numberTooLarge => "number out of range"
  | badEscape => "invalid escape"
  | brokenSurrogatePair => "unexpected end of hex escape"
  | loneSurrogate => "lone leading surrogate in hex escape"
  | controlCharacter => "control character (\\u0000-\\u001F) found while parsing a string"
  | tooDeep => "recursion limit exceeded"
  | missingField name => "missing field " ++ ticked name
  | repeatedField name => "duplicate field " ++ ticked name
  | unknownVariant given known => "unknown variant " ++ ticked given ++ ", " ++ choice known
  | wrongLength length expected => "invalid length " ++ toString length ++ ", expected " ++ expected
  | wrongType found expected => "invalid type: " ++ found.phrase ++ ", expected " ++ expected
  | wrongValue found expected => "invalid value: " ++ found.phrase ++ ", expected " ++ expected

end FlowchartSlides.Json
