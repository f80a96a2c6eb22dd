import FlowchartSlides.Assistant.Basic
import FlowchartSlides.Slide.Layout
import FlowchartSlides.Slide.Theme

/-!
# Settings

What a run can be configured with: the theme, the layout and the model.
-/
namespace FlowchartSlides

structure Settings where
  theme : Theme
  layout : Layout
  model : ModelSettings
deriving Repr

def Settings.standard : Settings := ⟨default, default, default⟩

instance : Inhabited Settings := ⟨.standard⟩

end FlowchartSlides
