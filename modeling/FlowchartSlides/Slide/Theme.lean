/-!
# Themes

A theme holds the styles that shapes, connectors, texts and titles have unless
something else is asked for. Colours are six hexadecimal digits.
-/
namespace FlowchartSlides

inductive HAlign where
  | left
  | center
  | right
deriving Repr, DecidableEq

inductive VAlign where
  | top
  | middle
  | bottom
deriving Repr, DecidableEq

def HAlign.name : HAlign → String
  | left => "left"
  | center => "center"
  | right => "right"

def HAlign.ofName? : String → Option HAlign
  | "left" => some left
  | "center" => some center
  | "right" => some right
  | _ => none

def VAlign.name : VAlign → String
  | top => "top"
  | middle => "middle"
  | bottom => "bottom"

def VAlign.ofName? : String → Option VAlign
  | "top" => some top
  | "middle" => some middle
  | "bottom" => some bottom
  | _ => none

structure ShapeStyle where
  fillColor : String
  lineColor : String
  lineWidth : Float32
  fontSize : Float32
  textColor : String
  align : HAlign
  valign : VAlign
deriving Repr

structure ConnectorStyle where
  lineColor : String
  lineWidth : Float32
deriving Repr

structure TextStyle where
  fontSize : Float32
  bold : Bool
  textColor : Option String
  fillColor : Option String
  align : Option HAlign
deriving Repr

structure Theme where
  shape : ShapeStyle
  connector : ConnectorStyle
  text : TextStyle
  title : TextStyle
deriving Repr

namespace Theme

def office : Theme where
  shape := ⟨"4472C4", "2E528F", 1, 12, "FFFFFF", .center, .middle⟩
  connector := ⟨"2E528F", 1⟩
  text := ⟨12, false, none, none, none⟩
  title := ⟨18, true, none, none, none⟩

def modern : Theme where
  shape := ⟨"F8FAFF", "C7D2E5", 1, 13, "1C2430", .center, .middle⟩
  connector := ⟨"7A8AA6", 1⟩
  text := ⟨13, false, some "1C2430", none, none⟩
  title := ⟨20, true, some "1C2430", none, none⟩

instance : Inhabited Theme := ⟨office⟩

/-- The themes that settings can name. -/
def named? : String → Option Theme
  | "modern" => some modern
  | "office" => some office
  | "default" => some office
  | _ => none

end Theme

end FlowchartSlides
