import FlowchartSlides.Json.Reader
import FlowchartSlides.Settings.Basic

/-!
# Settings as documents

A settings document names a theme, changes single values of it, replaces the
layout and changes the model. The values of the theme are changed after the
theme has been chosen, wherever they stand. A layout takes the standard value
for each field that is left out.
-/
namespace FlowchartSlides.Settings

open Json (Fault Reader)
open Json.Reader (FieldRule)

/-- Why a settings document is refused. -/
inductive Refusal where
  | document (fault : Fault)
  | unknownTheme (name : String)

def Refusal.message : Refusal → String
  | document fault => fault.message
  | unknownTheme name => "unknown theme " ++ Text.quoted name

/-- Changes of single values of a theme. -/
structure ThemeChanges where
  fillColor : Option String := none
  lineColor : Option String := none
  lineWidth : Option Float32 := none
  fontSize : Option Float32 := none
  textColor : Option String := none
  connectorColor : Option String := none
  connectorWidth : Option Float32 := none
  titleFontSize : Option Float32 := none

/-- Changes of the model settings. -/
structure ModelChanges where
  apiUrl : Option String := none
  model : Option String := none
  apiKey : Option String := none
  maxInputChars : Option Nat := none

/-- A settings document. -/
structure Document where
  theme : Option String := none
  themeVariables : Option ThemeChanges := none
  layout : Option Layout := none
  model : Option ModelChanges := none

variable {σ : Type}

/-- A field that may hold a text. -/
def textField (name : String) (put : σ → Option String → σ) : FieldRule σ :=
  ⟨name, fun s => return put s (← Reader.optional (Reader.text "a string"))⟩

/-- A field that may hold a number. -/
def singleField (name : String) (put : σ → Option Float32 → σ) : FieldRule σ :=
  ⟨name, fun s => return put s (← Reader.optional Reader.single)⟩

/-- A field that must hold a number. -/
def plainField (name : String) (put : σ → Float32 → σ) : FieldRule σ :=
  ⟨name, fun s => return put s (← Reader.single)⟩

def readThemeChanges : Reader ThemeChanges :=
  let fields : List (FieldRule ThemeChanges) :=
    [textField "fillColor" fun c v => { c with fillColor := v },
      textField "lineColor" fun c v => { c with lineColor := v },
      singleField "lineWidth" fun c v => { c with lineWidth := v },
      singleField "fontSize" fun c v => { c with fontSize := v },
      textField "textColor" fun c v => { c with textColor := v },
      textField "connectorColor" fun c v => { c with connectorColor := v },
      singleField "connectorWidth" fun c v => { c with connectorWidth := v },
      singleField "titleFontSize" fun c v => { c with titleFontSize := v }]
  Reader.record "struct ThemeVariables" fields fields.length {}

/-- The parts of a rectangle that have been read. -/
structure RectParts where
  x : Option Float32 := none
  y : Option Float32 := none
  width : Option Float32 := none
  height : Option Float32 := none

def RectParts.toRect (p : RectParts) : Except Fault Rect := do
  return ⟨← Reader.need "x" p.x, ← Reader.need "y" p.y, ← Reader.need "width" p.width,
    ← Reader.need "height" p.height⟩

/-- A rectangle; all its parts must be there. -/
def readRect : Reader Rect := do
  let fields : List (FieldRule RectParts) :=
    [plainField "x" fun p v => { p with x := some v },
      plainField "y" fun p v => { p with y := some v },
      plainField "width" fun p v => { p with width := some v },
      plainField "height" fun p v => { p with height := some v }]
  let parts ← Reader.record "struct Rect" fields fields.length {}
  match parts.toRect with
  | .ok r => return r
  | .error f => Reader.fail f

def readLayout : Reader Layout :=
  let fields : List (FieldRule Layout) :=
    [plainField "startX" fun l v => { l with startX := v },
      plainField "startY" fun l v => { l with startY := v },
      plainField "spacing" fun l v => { l with spacing := v },
      plainField "rowHeight" fun l v => { l with rowHeight := v },
      ⟨"gridColumns", fun l => return { l with gridColumns := ← Reader.natural }⟩,
      plainField "nodeWidth" fun l v => { l with nodeWidth := v },
      plainField "nodeHeight" fun l v => { l with nodeHeight := v },
      ⟨"defaultShape", fun l => return { l with defaultShape := ← readRect }⟩,
      ⟨"textBox", fun l => return { l with textBox := ← readRect }⟩,
      plainField "titleX" fun l v => { l with titleX := v },
      plainField "titleY" fun l v => { l with titleY := v }]
  Reader.record "struct LayoutConfig" fields 0 Layout.standard

def readModelChanges : Reader ModelChanges :=
  let fields : List (FieldRule ModelChanges) :=
    [textField "apiUrl" fun c v => { c with apiUrl := v },
      textField "model" fun c v => { c with model := v },
      textField "apiKey" fun c v => { c with apiKey := v },
      ⟨"maxInputChars", fun c =>
        return { c with maxInputChars := ← Reader.optional Reader.natural }⟩]
  Reader.record "struct ModelConfigFile" fields fields.length {}

def readDocument : Reader Document :=
  let fields : List (FieldRule Document) :=
    [textField "theme" fun d v => { d with theme := v },
      ⟨"themeVariables", fun d =>
        return { d with themeVariables := ← Reader.optional readThemeChanges }⟩,
      ⟨"layout", fun d => return { d with layout := ← Reader.optional readLayout }⟩,
      ⟨"model", fun d => return { d with model := ← Reader.optional readModelChanges }⟩]
  Reader.record "struct ConfigFile" fields fields.length {}

/-- Changes a theme; the font size is that of shapes and of texts. -/
def ThemeChanges.apply (c : ThemeChanges) (t : Theme) : Theme :=
  { shape := { t.shape with
      fillColor := c.fillColor.getD t.shape.fillColor
      lineColor := c.lineColor.getD t.shape.lineColor
      lineWidth := c.lineWidth.getD t.shape.lineWidth
      fontSize := c.fontSize.getD t.shape.fontSize
      textColor := c.textColor.getD t.shape.textColor }
    connector :=
      { lineColor := c.connectorColor.getD t.connector.lineColor
        lineWidth := c.connectorWidth.getD t.connector.lineWidth }
    text := { t.text with fontSize := c.fontSize.getD t.text.fontSize }
    title := { t.title with fontSize := c.titleFontSize.getD t.title.fontSize } }

def ModelChanges.apply (c : ModelChanges) (m : ModelSettings) : ModelSettings :=
  { apiUrl := c.apiUrl.getD m.apiUrl
    model := c.model.getD m.model
    apiKey := c.apiKey <|> m.apiKey
    maxInputChars := c.maxInputChars.getD m.maxInputChars }

/-- The theme that a name stands for; without a name the standard one. -/
def themeOf : Option String → Except Refusal Theme
  | none => .ok default
  | some name => match Theme.named? name with
    | some theme => .ok theme
    | none => .error (.unknownTheme name)

/-- The settings that a document describes. -/
def ofDocument (d : Document) : Except Refusal Settings := do
  let theme ← themeOf d.theme
  return {
    theme := (d.themeVariables.map (·.apply theme)).getD theme
    layout := d.layout.getD default
    model := (d.model.map (·.apply default)).getD default }

/-- Reads settings from a text. -/
def ofText (s : String) : Except Refusal Settings :=
  match Reader.run readDocument s with
  | .ok d => ofDocument d
  | .error f => .error (.document f)

end FlowchartSlides.Settings
