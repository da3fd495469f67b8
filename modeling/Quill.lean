import Quill.Buffer
import Quill.Canvas
import Quill.Color.Basic
import Quill.Color.Notation
import Quill.CommandLine.Compile
import Quill.CommandLine.Options
import Quill.Compositing
import Quill.Context.Attribute
import Quill.Context.Basic
import Quill.Context.Snapshot
import Quill.Context.Stack
import Quill.Deflate.Bits
import Quill.Deflate.Code
import Quill.Deflate.Fault
import Quill.Deflate.Inflation
import Quill.Deflate.Reader
import Quill.Deflate.Writer
import Quill.Drawing.Basic
import Quill.Drawing.Bracket
import Quill.Drawing.Call
import Quill.Drawing.Motion
import Quill.Drawing.Plan
import Quill.Drawing.Setting
import Quill.Drawing.Shape
import Quill.Drawing.Summary
import Quill.Failure
import Quill.Files
import Quill.Json.Codec
import Quill.Json.Number
import Quill.Json.Reader
import Quill.Json.Value
import Quill.Json.Writer
import Quill.Main
import Quill.Number.Binary
import Quill.Number.Decimal
import Quill.Number.Hexadecimal
import Quill.Number.Nearest
import Quill.Number.Numeral
import Quill.Number.Shortest
import Quill.Number.Significant
import Quill.Path
import Quill.Pattern
import Quill.Picture.Basic
import Quill.Picture.Chunk
import Quill.Picture.Data
import Quill.Picture.Fault
import Quill.Picture.Filter
import Quill.Picture.Format
import Quill.Picture.Header
import Quill.Picture.Lead
import Quill.Picture.Pass
import Quill.Picture.Pixels
import Quill.Picture.Png
import Quill.Proofs.Ambient
import Quill.Proofs.Atomicity
import Quill.Proofs.AttributeCodecs
import Quill.Proofs.Balance
import Quill.Proofs.Base64Text
import Quill.Proofs.Beside
import Quill.Proofs.BracketLines
import Quill.Proofs.Bracketless
import Quill.Proofs.BufferSessions
import Quill.Proofs.Capture
import Quill.Proofs.ClipPaths
import Quill.Proofs.Codecs
import Quill.Proofs.ColorNames
import Quill.Proofs.CommandCalls
import Quill.Proofs.CommandForms
import Quill.Proofs.DataLayout
import Quill.Proofs.DataReading
import Quill.Proofs.DecimalText
import Quill.Proofs.DoubleOrder
import Quill.Proofs.DoubleRange
import Quill.Proofs.DoubleResults
import Quill.Proofs.Doubles
import Quill.Proofs.Edits
import Quill.Proofs.Exhausted
import Quill.Proofs.FiniteTransforms
import Quill.Proofs.Fresh
import Quill.Proofs.Growing
import Quill.Proofs.HeldLengths
import Quill.Proofs.Indenting
import Quill.Proofs.InlinePictures
import Quill.Proofs.Inputs
import Quill.Proofs.InstructionLines
import Quill.Proofs.Keys
import Quill.Proofs.Leaks
import Quill.Proofs.Limit
import Quill.Proofs.LimitedRun
import Quill.Proofs.Lines
import Quill.Proofs.Lockstep
import Quill.Proofs.Mirroring
import Quill.Proofs.NearestDouble
import Quill.Proofs.Nesting
import Quill.Proofs.NumberShape
import Quill.Proofs.NumberSize
import Quill.Proofs.NumberText
import Quill.Proofs.Numerals
import Quill.Proofs.OpacityCoupling
import Quill.Proofs.Operands
import Quill.Proofs.PaintTokens
import Quill.Proofs.PathArguments
import Quill.Proofs.PathData
import Quill.Proofs.PathDrawing
import Quill.Proofs.PathGrammar
import Quill.Proofs.PathReading
import Quill.Proofs.PathWords
import Quill.Proofs.Pieces
import Quill.Proofs.Plan
import Quill.Proofs.PointLists
import Quill.Proofs.QuotedText
import Quill.Proofs.References
import Quill.Proofs.Refusals
import Quill.Proofs.Remembering
import Quill.Proofs.Repeats
import Quill.Proofs.Room
import Quill.Proofs.Rounding
import Quill.Proofs.Run
import Quill.Proofs.SafeReplay
import Quill.Proofs.Scopes
import Quill.Proofs.ScriptData
import Quill.Proofs.SelfContained
import Quill.Proofs.SettingFrames
import Quill.Proofs.ShortestDigits
import Quill.Proofs.SignificantDigits
import Quill.Proofs.SignificantText
import Quill.Proofs.Snapshots
import Quill.Proofs.Spacing
import Quill.Proofs.Splices
import Quill.Proofs.StaleMarks
import Quill.Proofs.Surroundings
import Quill.Proofs.Transforms
import Quill.Proofs.Truncation
import Quill.Proofs.UnitSquare
import Quill.Proofs.WhiteSpace
import Quill.Proofs.WholePixels
import Quill.Proofs.Widths
import Quill.Proofs.WrapColumn
import Quill.Script.Command
import Quill.Script.Form
import Quill.Script.Replay
import Quill.Settings
import Quill.Text.Base64
import Quill.Text.Blank
import Quill.Text.Extending
import Quill.Text.Quoted
import Quill.Text.Table
import Quill.Text.Unseen
import Quill.Text.Utf8
import Quill.Text.Visible
import Quill.Transform
