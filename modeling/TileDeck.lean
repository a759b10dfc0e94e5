import TileDeck.Agrees
import TileDeck.Code.Drawing
import TileDeck.Code.Reckoned
import TileDeck.Code.Token
import TileDeck.Colour
import TileDeck.Config
import TileDeck.Coordinate
import TileDeck.Deck
import TileDeck.Double
import TileDeck.Files
import TileDeck.Gallery
import TileDeck.Machine
import TileDeck.Machine.Presentation
import TileDeck.Machine.Showing
import TileDeck.Main
import TileDeck.Markup.Command
import TileDeck.Markup.Fault
import TileDeck.Markup.Line
import TileDeck.Markup.Printer
import TileDeck.Pad.Buttons
import TileDeck.Pad.Remote
import TileDeck.Page.Cursor
import TileDeck.Page.Reckoned
import TileDeck.Page.Showing
import TileDeck.Page.Stage
import TileDeck.Palette
import TileDeck.Plane
import TileDeck.Plane.Reckoned
import TileDeck.Plane.Tile
import TileDeck.Position
import TileDeck.Presentation
import TileDeck.Primitive
import TileDeck.Reckoning
import TileDeck.Recorder
import TileDeck.Shape.Arrow
import TileDeck.Shape.Box
import TileDeck.Terminal
import TileDeck.Terminal.Ansi
import TileDeck.Terminal.Key
import TileDeck.Terminal.Layout
import TileDeck.Terminal.Painting
import TileDeck.Terminal.Reckoned
import TileDeck.Terminal.Settings
import TileDeck.Terminal.Size
import TileDeck.Terminal.Status
import TileDeck.Text.Blank
import TileDeck.Text.Decimal
import TileDeck.Text.Lines
import TileDeck.Text.Numeral
import TileDeck.Text.Parser
import TileDeck.Toml.Document
import TileDeck.Toml.Scalar
import TileDeck.Toml.Value
import TileDeck.Proofs.Answers
import TileDeck.Proofs.Code.Columns
import TileDeck.Proofs.Code.Extent
import TileDeck.Proofs.Code.Glyphs
import TileDeck.Proofs.Code.Shown
import TileDeck.Proofs.Code.Tokens
import TileDeck.Proofs.Colour
import TileDeck.Proofs.Config
import TileDeck.Proofs.Coordinate
import TileDeck.Proofs.Deck.Pages
import TileDeck.Proofs.Deck.Positions
import TileDeck.Proofs.Deck.Returns
import TileDeck.Proofs.Deck.Sections
import TileDeck.Proofs.Entries
import TileDeck.Proofs.Gallery
import TileDeck.Proofs.Hexadecimal
import TileDeck.Proofs.Machine
import TileDeck.Proofs.Markup.Checks
import TileDeck.Proofs.Markup.Fields
import TileDeck.Proofs.Markup.Lengths
import TileDeck.Proofs.Markup.Numbering
import TileDeck.Proofs.Markup.Printing
import TileDeck.Proofs.Markup.Sorting
import TileDeck.Proofs.Pad.Waiting
import TileDeck.Proofs.Page.Continuations
import TileDeck.Proofs.Page.Drawing
import TileDeck.Proofs.Page.Ending
import TileDeck.Proofs.Page.Exact
import TileDeck.Proofs.Page.Inert
import TileDeck.Proofs.Page.Lines
import TileDeck.Proofs.Page.Lockstep
import TileDeck.Proofs.Page.Reach
import TileDeck.Proofs.Plane.Card
import TileDeck.Proofs.Plane.Clearing
import TileDeck.Proofs.Plane.Exact
import TileDeck.Proofs.Plane.History
import TileDeck.Proofs.Plane.Layer
import TileDeck.Proofs.Plane.Marks
import TileDeck.Proofs.Plane.Shapes
import TileDeck.Proofs.Plane.Shown
import TileDeck.Proofs.Plane.Spans
import TileDeck.Proofs.Plane.Title
import TileDeck.Proofs.Position
import TileDeck.Proofs.Recorder
import TileDeck.Proofs.Run.Directions
import TileDeck.Proofs.Run.Holding
import TileDeck.Proofs.Run.Indicators
import TileDeck.Proofs.Run.Ink
import TileDeck.Proofs.Run.Lockstep
import TileDeck.Proofs.Run.Pace
import TileDeck.Proofs.Run.Past
import TileDeck.Proofs.Run.Presses
import TileDeck.Proofs.Run.Progress
import TileDeck.Proofs.Run.Reloading
import TileDeck.Proofs.Run.Turning
import TileDeck.Proofs.Run.Unstopped
import TileDeck.Proofs.Run.Visits
import TileDeck.Proofs.Shape.Arrow
import TileDeck.Proofs.Shape.Box
import TileDeck.Proofs.Shape.Tiles
import TileDeck.Proofs.Terminal.Centring
import TileDeck.Proofs.Terminal.Layout
import TileDeck.Proofs.Terminal.Painting
import TileDeck.Proofs.Terminal.Pictures
import TileDeck.Proofs.Text.Lines
import TileDeck.Proofs.Text.Notations
import TileDeck.Proofs.Text.Numerals
import TileDeck.Proofs.Text.Pieces
import TileDeck.Proofs.Text.Returns
