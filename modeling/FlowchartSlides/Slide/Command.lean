import FlowchartSlides.Json.Value
import FlowchartSlides.Slide.Adjustment

/-!
# Adjustments as documents

A list of commands is a list of objects with the name of the command under
`type`; a command may also be a list with the name first and its values in
order. A command is read whole before its values are looked at, so a fault in
the text of a command comes before a value of the wrong kind in it.
-/
namespace FlowchartSlides.Adjustment

open Json (Fault Value Reader)

/-- The names of the commands. -/
def names : List String := ["moveNode", "resizeNode", "changeNodeStyle", "addNode", "addConnector"]

/-- The values that commands can have; each command uses some of them. -/
structure Draft where
  nodeId : Option String := none
  fromId : Option String := none
  toId : Option String := none
  text : Option String := none
  shape : Option ShapeKind := none
  arrowType : Option ArrowHead := none
  x : Option Float32 := none
  y : Option Float32 := none
  width : Option Float32 := none
  height : Option Float32 := none
  fill : Option String := none
  line : Option String := none
  lineColor : Option String := none
  textColor : Option String := none
  lineWidth : Option Float32 := none
  fontSize : Option Float32 := none

abbrev Slot := Value.FieldRule Draft

/-- A field that must hold a text. -/
def textSlot (name : String) (put : Draft → Option String → Draft) : Slot :=
  ⟨name, fun d v => do return put d (some (← v.asText))⟩

/-- A field that may hold a text. -/
def textSlot? (name : String) (put : Draft → Option String → Draft) : Slot :=
  ⟨name, fun d v => do return put d (← v.asOptional Value.asText)⟩

/-- A field that must hold a number. -/
def singleSlot (name : String) (put : Draft → Option Float32 → Draft) : Slot :=
  ⟨name, fun d v => do return put d (some (← v.asSingle))⟩

/-- A field that may hold a number. -/
def singleSlot? (name : String) (put : Draft → Option Float32 → Draft) : Slot :=
  ⟨name, fun d v => do return put d (← v.asOptional Value.asSingle)⟩

/-- A field that may hold the name of a kind of shape. -/
def shapeSlot? : Slot :=
  ⟨"shape", fun d v => do
    let name ← v.asOptional (Value.asChoice (ShapeKind.all.map ShapeKind.name))
    return { d with shape := name.bind ShapeKind.ofName? }⟩

/-- A field that may hold the name of a connector's head. -/
def arrowSlot? : Slot :=
  ⟨"arrowType", fun d v => do
    let name ← v.asOptional (Value.asChoice (ArrowHead.all.map ArrowHead.name))
    return { d with arrowType := name.bind ArrowHead.ofName? }⟩

def nodeIdSlot : Slot := textSlot "nodeId" fun d s => { d with nodeId := s }

def lineWidthSlot : Slot := singleSlot? "lineWidth" fun d x => { d with lineWidth := x }

def fontSizeSlot : Slot := singleSlot? "fontSize" fun d x => { d with fontSize := x }

def fillSlot : Slot := textSlot? "fill" fun d s => { d with fill := s }

def lineSlot : Slot := textSlot? "line" fun d s => { d with line := s }

/-- The fields of a command in order. -/
def slots : String → List Slot
  | "moveNode" =>
    [nodeIdSlot, singleSlot "x" fun d x => { d with x := x },
      singleSlot "y" fun d y => { d with y := y }]
  | "resizeNode" =>
    [nodeIdSlot, singleSlot "width" fun d w => { d with width := w },
      singleSlot "height" fun d h => { d with height := h }]
  | "changeNodeStyle" => [nodeIdSlot, fillSlot, lineSlot, lineWidthSlot, fontSizeSlot]
  | "addNode" =>
    [textSlot? "nodeId" fun d s => { d with nodeId := s },
      textSlot "text" fun d s => { d with text := s },
      shapeSlot?,
      singleSlot? "x" fun d x => { d with x := x },
      singleSlot? "y" fun d y => { d with y := y },
      singleSlot? "width" fun d w => { d with width := w },
      singleSlot? "height" fun d h => { d with height := h },
      fillSlot, lineSlot, lineWidthSlot, fontSizeSlot,
      textSlot? "textColor" fun d s => { d with textColor := s }]
  | _ =>
    [textSlot "fromId" fun d s => { d with fromId := s },
      textSlot "toId" fun d s => { d with toId := s },
      arrowSlot?,
      textSlot? "lineColor" fun d s => { d with lineColor := s },
      lineWidthSlot]

/-- The phrase for the values of a command. -/
def title (name : String) : String :=
  "struct variant Adjustment::" ++ name.capitalize

/-- The command of a name and its values; the first value that is missing is a fault. -/
def ofDraft (name : String) (d : Draft) : Except Fault Adjustment :=
  match name with
  | "moveNode" => do
    return .moveNode (← Reader.need "nodeId" d.nodeId) (← Reader.need "x" d.x)
      (← Reader.need "y" d.y)
  | "resizeNode" => do
    return .resizeNode (← Reader.need "nodeId" d.nodeId) (← Reader.need "width" d.width)
      (← Reader.need "height" d.height)
  | "changeNodeStyle" => do
    return .changeNodeStyle (← Reader.need "nodeId" d.nodeId)
      ⟨d.fill, d.line, d.lineWidth, d.fontSize⟩
  | "addNode" => do
    return .addNode
      { id := d.nodeId, text := ← Reader.need "text" d.text, kind := d.shape
        x := d.x, y := d.y, width := d.width, height := d.height
        fillColor := d.fill, lineColor := d.line, lineWidth := d.lineWidth
        fontSize := d.fontSize, textColor := d.textColor }
  | _ => do
    return .addConnector
      { source := ← Reader.need "fromId" d.fromId, target := ← Reader.need "toId" d.toId
        head := d.arrowType, lineColor := d.lineColor, lineWidth := d.lineWidth }

/-- The command of a name and the value that holds its fields. -/
def ofValue (name : String) (v : Value) : Except Fault Adjustment := do
  ofDraft name (← Value.record (title name) (slots name) {} v)

/-- The name of a command. -/
def readName : Reader String := do
  let name ← Reader.text "variant identifier"
  match Value.knownName names name with
  | .ok name => return name
  | .error f => Reader.fail f

/-- The levels of nesting that are left inside a command of a list. -/
def innerLevels : Nat := Value.nestingLimit - 2

/-- One field of a command: the name under `type`, all others as they are. -/
def readField (done : Option String × List (String × Value)) (key : String) :
    Reader (Option String × List (String × Value)) := do
  if key = "type" then
    if done.1.isSome then Reader.fail (.repeatedField "type")
    else
      Reader.colon
      return (some (← readName), done.2)
  else
    Reader.colon
    return (done.1, (key, ← Value.read innerLevels) :: done.2)

/-- Reads a command whole: its name and its other fields. -/
def readWhole : Reader (String × Value) := do
  match ← Reader.start with
  | '[' =>
    Reader.advance
    if ← Reader.nextItem true then
      let name ← readName
      return (name, .list (← Reader.items (Value.read innerLevels) false))
    else Reader.fail (.missingField "type")
  | '{' =>
    Reader.advance
    match ← Reader.fields readField (none, []) with
    | (some name, fields) => return (name, .object fields.reverse)
    | (none, _) => Reader.fail (.missingField "type")
  | _ => Reader.mismatch "internally tagged enum Adjustment"

def readCommand : Reader Adjustment := do
  let (name, v) ← readWhole
  match ofValue name v with
  | .ok a => return a
  | .error f => Reader.fail f

def readAll : Reader (List Adjustment) := do
  match ← Reader.start with
  | '[' =>
    Reader.advance
    Reader.items readCommand true
  | _ => Reader.mismatch "a sequence"

/-- Reads a list of commands. -/
def ofText (s : String) : Except Fault (List Adjustment) := Reader.run readAll s

end FlowchartSlides.Adjustment
