import FlowchartSlides.Main
import FlowchartSlides.CommandLine.Folder
import FlowchartSlides.Assistant.Reply
import FlowchartSlides.Proofs.Decoration
import FlowchartSlides.Proofs.Described
import FlowchartSlides.Proofs.DecoratedLines
import FlowchartSlides.Proofs.DecoratedStatements
import FlowchartSlides.Proofs.Headers
import FlowchartSlides.Proofs.MergedReading
import FlowchartSlides.Proofs.Ids
import FlowchartSlides.Proofs.ShapeTexts
import FlowchartSlides.Proofs.TwoBuilds
import FlowchartSlides.Proofs.Arrows
import FlowchartSlides.Proofs.Rendering
import FlowchartSlides.Proofs.Drawing
import FlowchartSlides.Proofs.DrawnEdges
import FlowchartSlides.Proofs.BulkBuild
import FlowchartSlides.Proofs.WellFormed
import FlowchartSlides.Proofs.SharedIds
import FlowchartSlides.Proofs.Contents
import FlowchartSlides.Proofs.Appended
import FlowchartSlides.Proofs.Fenced
import FlowchartSlides.Proofs.Coherence
import FlowchartSlides.Proofs.Replayed
import FlowchartSlides.Proofs.Forgetting
import FlowchartSlides.Proofs.DefinitionGrammar
import FlowchartSlides.Proofs.LinkGrammar
import FlowchartSlides.Proofs.CommandLists
import FlowchartSlides.Proofs.CommutingEdits
import FlowchartSlides.Proofs.Singles
import FlowchartSlides.Proofs.Sizes
import FlowchartSlides.Proofs.Magnitudes
import FlowchartSlides.Proofs.BoundedGeometry
import FlowchartSlides.Proofs.ExportedNumbers
import FlowchartSlides.Proofs.Chains
import FlowchartSlides.Proofs.BarTexts
import FlowchartSlides.Proofs.PlainLinks
import FlowchartSlides.Proofs.Spacing
import FlowchartSlides.Proofs.HeaderLines
import FlowchartSlides.Proofs.DeletedLines
import FlowchartSlides.Proofs.Groups
import FlowchartSlides.Proofs.AdjacentDefinitions
import FlowchartSlides.Proofs.IconOrder
import FlowchartSlides.Proofs.Places
import FlowchartSlides.Proofs.StrictConnectors
import FlowchartSlides.Proofs.EditFrames
import FlowchartSlides.Proofs.AutomaticIds
import FlowchartSlides.Proofs.Values
import FlowchartSlides.Proofs.RoundedValues
import FlowchartSlides.Proofs.RoundedResults
import FlowchartSlides.Proofs.LastResize
import FlowchartSlides.Proofs.ReportedBoxes
import FlowchartSlides.Proofs.Flips
import FlowchartSlides.Proofs.Segments
import FlowchartSlides.Proofs.FenceLengths
import FlowchartSlides.Proofs.FencedReplies
