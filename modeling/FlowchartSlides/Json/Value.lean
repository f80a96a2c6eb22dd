import FlowchartSlides.Json.Reader

/-!
# Values that are read whole

Some fields can only be understood after their whole object has been read. Such
values are kept as trees: objects keep the order of their fields and repeated
keys. Their nesting is limited.
-/
namespace FlowchartSlides.Json

inductive Value where
  | null
  | flag (value : Bool)
  | number (value : Number)
  | text (value : String)
  | list (items : List Value)
  | object (fields : List (String × Value))

namespace Value

/-- How many lists and objects may be open at once. -/
def nestingLimit : Nat := 127

open Reader in
/-- Reads a value in which `levels` lists and objects may still be opened. -/
def read (levels : Nat) : Reader Value := do
  match ← start with
  | 'n' => advance; word "ull".toList; return .null
  | 't' => advance; word "rue".toList; return .flag true
  | 'f' => advance; word "alse".toList; return .flag false
  | '"' => return .text (← quotedText)
  | '[' => match levels with
    | 0 => fail .tooDeep
    | levels + 1 =>
      advance
      return .list (← items (read levels) true)
  | '{' => match levels with
    | 0 => fail .tooDeep
    | levels + 1 =>
      advance
      let field (done : List (String × Value)) (key : String) : Reader (List (String × Value)) := do
        colon
        return (key, ← read levels) :: done
      return .object (← fields field []).reverse
  | c => if isNumberStart c then return .number (← Reader.number) else fail .noValue

/-- A text read as one value. -/
def ofText (s : String) : Except Fault Value := Reader.run (read nestingLimit) s

def found : Value → Found
  | null => .null
  | flag b => .flag b
  | number n => n.found
  | text s => .text s
  | list _ => .list
  | object _ => .object

def asText (v : Value) : Except Fault String :=
  match v with
  | text s => .ok s
  | _ => .error (.wrongType v.found "a string")

def asSingle (v : Value) : Except Fault Float32 :=
  match v with
  | number n => .ok n.toSingle
  | _ => .error (.wrongType v.found "f32")

/-- Reads a value that may be null. -/
def asOptional {α : Type} (as : Value → Except Fault α) (v : Value) : Except Fault (Option α) :=
  match v with
  | null => .ok none
  | _ => (as v).map some

/-- A name among the known ones. -/
def knownName (known : List String) (name : String) : Except Fault String :=
  if known.contains name then .ok name else .error (.unknownVariant name known)

/-- A choice between names: a text, or an object whose only key is the name and
whose value is empty. -/
def asChoice (known : List String) (v : Value) : Except Fault String :=
  match v with
  | text s => knownName known s
  | object [(key, value)] => do
    let name ← knownName known key
    match value with
    | null => return name
    | object [] => return name
    | _ => throw (.wrongType value.found "unit")
  | object _ => .error (.wrongValue .object "map with a single key")
  | _ => .error (.wrongType v.found "string or map")

/-- One field of a record that is read from values. -/
structure FieldRule (σ : Type) where
  name : String
  read : σ → Value → Except Fault σ

variable {σ : Type}

/-- The fields of an object one after the other; unknown ones are passed over,
and repeated ones refused. -/
def recordFields (known : List (FieldRule σ)) :
    (seen : List String) → List (String × Value) → σ → Except Fault σ
  | _, [], s => .ok s
  | seen, (key, v) :: rest, s =>
    match known.find? (·.name == key) with
    | none => recordFields known seen rest s
    | some f =>
      if seen.contains key then .error (.repeatedField key)
      else do recordFields known (key :: seen) rest (← f.read s v)

/-- The phrase for a number of elements. -/
def elements (n : Nat) : String := toString n ++ if n = 1 then " element" else " elements"

/-- The items of a list in the order of the fields, all of which must be there. -/
def recordItems (title : String) (count length : Nat) :
    (place : Nat) → List (FieldRule σ) → List Value → σ → Except Fault σ
  | _, [], [], s => .ok s
  | _, [], _ :: _, _ => .error (.wrongLength length (elements count ++ " in sequence"))
  | place, _ :: _, [], _ => .error (.wrongLength place (title ++ " with " ++ elements count))
  | place, f :: fs, v :: vs, s => do
    recordItems title count length (place + 1) fs vs (← f.read s v)

/-- A record from an object or from a list. -/
def record (title : String) (known : List (FieldRule σ)) (s : σ) (v : Value) : Except Fault σ :=
  match v with
  | object fields => recordFields known [] fields s
  | list items => recordItems title known.length items.length 0 known items s
  | _ => .error (.wrongType v.found title)

end Value

end FlowchartSlides.Json
