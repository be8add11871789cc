import LSystem.Binary64
import LSystem.Binary64.MulAdd
import LSystem.Canvas
import LSystem.CommandLine
import LSystem.Console
import LSystem.Coordinate
import LSystem.Cursor
import LSystem.Decimal.Reading
import LSystem.Decimal.Rounded
import LSystem.Decimal.Shortest
import LSystem.Dimensions
import LSystem.Expansion
import LSystem.Fractal
import LSystem.Gallery
import LSystem.GlyphRamp
import LSystem.Launch
import LSystem.Main
import LSystem.Proofs.Acceptance
import LSystem.Proofs.BranchMeaning
import LSystem.Proofs.Branches
import LSystem.Proofs.CachedGeneration
import LSystem.Proofs.ClippedPart
import LSystem.Proofs.CursorPlacement
import LSystem.Proofs.Darkening
import LSystem.Proofs.Decimal.Numerals
import LSystem.Proofs.EditedRow
import LSystem.Proofs.Edits
import LSystem.Proofs.EventLoop
import LSystem.Proofs.Expansion
import LSystem.Proofs.ExpansionLimit
import LSystem.Proofs.ExpansionStages
import LSystem.Proofs.FrameLayers
import LSystem.Proofs.GalleryFrame
import LSystem.Proofs.GrayPicture
import LSystem.Proofs.IndependentIntents
import LSystem.Proofs.Keystrokes
import LSystem.Proofs.LineColumns
import LSystem.Proofs.OrderedRules
import LSystem.Proofs.Pasting
import LSystem.Proofs.PendingRow
import LSystem.Proofs.PictureSize
import LSystem.Proofs.PixelCells
import LSystem.Proofs.PreviewLimit
import LSystem.Proofs.RampPlaces
import LSystem.Proofs.Rules
import LSystem.Proofs.Terminal.BoundedPainting
import LSystem.Proofs.Terminal.Chunks
import LSystem.Proofs.Terminal.Clipping
import LSystem.Proofs.Terminal.ControlC
import LSystem.Proofs.Terminal.Display
import LSystem.Proofs.Terminal.Drawing
import LSystem.Proofs.Terminal.Flushing
import LSystem.Proofs.Terminal.Keyboard
import LSystem.Proofs.Terminal.Overpainting
import LSystem.Proofs.Terminal.PaintedText
import LSystem.Proofs.Terminal.Progress
import LSystem.Proofs.Terminal.Repaint
import LSystem.Proofs.Terminal.Tallies
import LSystem.Proofs.Text.Utf8
import LSystem.Proofs.UnmatchedReturns
import LSystem.Proofs.WrittenSize
import LSystem.Rules
import LSystem.Scene
import LSystem.Session
import LSystem.Settings
import LSystem.Stroke
import LSystem.Terminal.Cell
import LSystem.Terminal.Command
import LSystem.Terminal.Decoder
import LSystem.Terminal.Frame
import LSystem.Terminal.Key
import LSystem.Terminal.Loop
import LSystem.Terminal.Painter
import LSystem.Terminal.Pen
import LSystem.Text.Blank
import LSystem.Text.Columns
import LSystem.Text.Escaped
import LSystem.Text.Quoted
import LSystem.Text.Ranges
import LSystem.Text.Stripped
import LSystem.Text.Utf8
import LSystem.Turtle
import LSystem.Viewer
