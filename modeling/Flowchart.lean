import Flowchart.Block
import Flowchart.CommandLine.Arguments
import Flowchart.CommandLine.Folder
import Flowchart.CommandLine.Guide
import Flowchart.CommandLine.Program
import Flowchart.Decimal.Binary
import Flowchart.Decimal.Shortest
import Flowchart.Diagram
import Flowchart.Drawing
import Flowchart.Drawing.Canvas
import Flowchart.Drawing.Markup
import Flowchart.Drawing.Number
import Flowchart.Drawing.Outline
import Flowchart.Drawing.Path
import Flowchart.Drawing.Style
import Flowchart.Editor.Basic
import Flowchart.Editor.Changes
import Flowchart.Editor.Event
import Flowchart.Editor.History
import Flowchart.Editor.Labels
import Flowchart.Editor.Listeners
import Flowchart.Editor.Load
import Flowchart.Editor.Pointer
import Flowchart.Editor.View
import Flowchart.Geometry
import Flowchart.Json.Diagram
import Flowchart.Json.Reader
import Flowchart.Json.Value
import Flowchart.Json.Writer
import Flowchart.Layout
import Flowchart.Layout.Config
import Flowchart.Layout.Level
import Flowchart.Layout.Measure
import Flowchart.Layout.Placement
import Flowchart.Main
import Flowchart.Picture
import Flowchart.Raster
import Flowchart.Raster.Arc
import Flowchart.Raster.Curve
import Flowchart.Raster.Figure
import Flowchart.Report
import Flowchart.Route
import Flowchart.Route.Fan
import Flowchart.Scalar
import Flowchart.Scalar.Float
import Flowchart.Scene
import Flowchart.Script.Arrow
import Flowchart.Script.Chart
import Flowchart.Script.Declaration
import Flowchart.Script.Diagnostic
import Flowchart.Script.Form
import Flowchart.Script.Label
import Flowchart.Script.LabelEdit
import Flowchart.Script.Line
import Flowchart.Script.Registry
import Flowchart.Script.Structure
import Flowchart.Settings
import Flowchart.Text.Base64
import Flowchart.Text.Blank
import Flowchart.Text.Distance
import Flowchart.Text.Escape
import Flowchart.Text.Glyph
import Flowchart.Text.Replace
import Flowchart.Text.Table
import Flowchart.Text.Width
import Flowchart.Theme
import Flowchart.Theme.Reader
import Flowchart.Toml.Number
import Flowchart.Toml.Reader
import Flowchart.Toml.Table
import Flowchart.Toml.Text
import Flowchart.Toml.Value
import Flowchart.Viewport
import Flowchart.Xml.WellFormed
import Flowchart.Proofs.Box
import Flowchart.Proofs.Decimal
import Flowchart.Proofs.Drawing
import Flowchart.Proofs.Drawing.Assembly
import Flowchart.Proofs.Drawing.Canvas
import Flowchart.Proofs.Drawing.Document
import Flowchart.Proofs.Drawing.Grammar
import Flowchart.Proofs.Drawing.Label
import Flowchart.Proofs.Drawing.Pieces
import Flowchart.Proofs.Drawing.Scan
import Flowchart.Proofs.Editor.Acyclicity
import Flowchart.Proofs.Editor.Atomicity
import Flowchart.Proofs.Editor.Connections
import Flowchart.Proofs.Editor.Consistency
import Flowchart.Proofs.Editor.Document
import Flowchart.Proofs.Editor.Drag
import Flowchart.Proofs.Editor.Legible
import Flowchart.Proofs.Editor.Mirror
import Flowchart.Proofs.Editor.Operation
import Flowchart.Proofs.Editor.Pointer
import Flowchart.Proofs.Editor.Rearranging
import Flowchart.Proofs.Editor.Recovery
import Flowchart.Proofs.Editor.Registration
import Flowchart.Proofs.Editor.Run
import Flowchart.Proofs.Editor.Session
import Flowchart.Proofs.Editor.Step
import Flowchart.Proofs.Editor.Timeline
import Flowchart.Proofs.Editor.Told
import Flowchart.Proofs.Editor.Undo
import Flowchart.Proofs.Editor.Wording
import Flowchart.Proofs.Editor.Zoom
import Flowchart.Proofs.Fan
import Flowchart.Proofs.Fan.Order
import Flowchart.Proofs.Fan.Passes
import Flowchart.Proofs.Float
import Flowchart.Proofs.Float.Finite
import Flowchart.Proofs.Float.Order
import Flowchart.Proofs.Layout.Arrange
import Flowchart.Proofs.Layout.Checked
import Flowchart.Proofs.Layout.Connection
import Flowchart.Proofs.Layout.Demotion
import Flowchart.Proofs.Layout.Forest
import Flowchart.Proofs.Layout.LongestPath
import Flowchart.Proofs.Layout.Reach
import Flowchart.Proofs.Layout.Renaming
import Flowchart.Proofs.Layout.Round
import Flowchart.Proofs.Layout.Row
import Flowchart.Proofs.Layout.Separation
import Flowchart.Proofs.Layout.Span
import Flowchart.Proofs.Layout.Sweep
import Flowchart.Proofs.Layout.Table
import Flowchart.Proofs.Layout.Width
import Flowchart.Proofs.Layout.Work
import Flowchart.Proofs.Layout.Wrapping
import Flowchart.Proofs.Places
import Flowchart.Proofs.Renaming
import Flowchart.Proofs.Route
import Flowchart.Proofs.Route.Clearance
import Flowchart.Proofs.Route.Distance
import Flowchart.Proofs.Scene
import Flowchart.Proofs.Script.Appending
import Flowchart.Proofs.Script.Arrow
import Flowchart.Proofs.Script.ArrowLine
import Flowchart.Proofs.Script.Between
import Flowchart.Proofs.Script.Chart
import Flowchart.Proofs.Script.Dangling
import Flowchart.Proofs.Script.Declaration
import Flowchart.Proofs.Script.Effect
import Flowchart.Proofs.Script.Field
import Flowchart.Proofs.Script.Instruction
import Flowchart.Proofs.Script.Label
import Flowchart.Proofs.Script.LabelEdit
import Flowchart.Proofs.Script.Language
import Flowchart.Proofs.Script.Line
import Flowchart.Proofs.Script.Mark
import Flowchart.Proofs.Script.MergeLine
import Flowchart.Proofs.Script.Moving
import Flowchart.Proofs.Script.Notation
import Flowchart.Proofs.Script.Passage
import Flowchart.Proofs.Script.Place
import Flowchart.Proofs.Script.Pointing
import Flowchart.Proofs.Script.Prefix
import Flowchart.Proofs.Script.Program
import Flowchart.Proofs.Script.Quoting
import Flowchart.Proofs.Script.Redeclare
import Flowchart.Proofs.Script.Registry
import Flowchart.Proofs.Script.Reload
import Flowchart.Proofs.Script.Removal
import Flowchart.Proofs.Script.Rename
import Flowchart.Proofs.Script.Retrace
import Flowchart.Proofs.Script.Skipping
import Flowchart.Proofs.Script.Spacing
import Flowchart.Proofs.Script.Spelling
import Flowchart.Proofs.Script.Spread
import Flowchart.Proofs.Script.Suggestion
import Flowchart.Proofs.Script.Token
import Flowchart.Proofs.Script.Unplaced
import Flowchart.Proofs.Script.Walk
import Flowchart.Proofs.Script.Writer
import Flowchart.Proofs.Text.Blank
import Flowchart.Proofs.Text.Distance
import Flowchart.Proofs.Text.Escape
import Flowchart.Proofs.Text.Replace
import Flowchart.Proofs.Theme
import Flowchart.Proofs.Viewport
import Flowchart.Proofs.Fan.Passes
