import ScreenMarkup.Content.Raster
import ScreenMarkup.Numeric.Scientific
import ScreenMarkup.Proofs.Content.ButtonLabel
import ScreenMarkup.Proofs.Content.Line
import ScreenMarkup.Proofs.Content.Markdown
import ScreenMarkup.Proofs.Content.Painting
import ScreenMarkup.Proofs.Content.Picture
import ScreenMarkup.Proofs.Content.Raster
import ScreenMarkup.Proofs.Content.Stroke
import ScreenMarkup.Proofs.Document.Declarations
import ScreenMarkup.Proofs.Document.Ids
import ScreenMarkup.Proofs.Document.Omission
import ScreenMarkup.Proofs.Event.Heard
import ScreenMarkup.Proofs.Markup.Assembling
import ScreenMarkup.Proofs.Markup.Entities
import ScreenMarkup.Proofs.Markup.Escaping
import ScreenMarkup.Proofs.Markup.Extraction
import ScreenMarkup.Proofs.Markup.LetterCase
import ScreenMarkup.Proofs.Markup.Locality
import ScreenMarkup.Proofs.Markup.Pieces
import ScreenMarkup.Proofs.Markup.Progress
import ScreenMarkup.Proofs.Markup.Proper
import ScreenMarkup.Proofs.Markup.RoundTrip
import ScreenMarkup.Proofs.Markup.Search
import ScreenMarkup.Proofs.Markup.Writing
import ScreenMarkup.Proofs.NameTable
import ScreenMarkup.Proofs.Navigation.Anchored
import ScreenMarkup.Proofs.Navigation.Choices
import ScreenMarkup.Proofs.Navigation.Construction
import ScreenMarkup.Proofs.Navigation.Copy
import ScreenMarkup.Proofs.Navigation.Display
import ScreenMarkup.Proofs.Navigation.Filling
import ScreenMarkup.Proofs.Navigation.Groups
import ScreenMarkup.Proofs.Navigation.Paint
import ScreenMarkup.Proofs.Navigation.Redirection
import ScreenMarkup.Proofs.Navigation.Top
import ScreenMarkup.Proofs.Numeric.Coordinates
import ScreenMarkup.Proofs.Numeric.Digits
import ScreenMarkup.Proofs.Numeric.Rounding
import ScreenMarkup.Proofs.Numeric.Saturation
import ScreenMarkup.Proofs.Screen.Ancestry
import ScreenMarkup.Proofs.Screen.Arena
import ScreenMarkup.Proofs.Screen.Carry
import ScreenMarkup.Proofs.Screen.Change
import ScreenMarkup.Proofs.Screen.Clearing
import ScreenMarkup.Proofs.Screen.Copy
import ScreenMarkup.Proofs.Screen.CopyChange
import ScreenMarkup.Proofs.Screen.Deletion
import ScreenMarkup.Proofs.Screen.Later
import ScreenMarkup.Proofs.Screen.Leaving
import ScreenMarkup.Proofs.Screen.Looks
import ScreenMarkup.Proofs.Screen.Paint
import ScreenMarkup.Proofs.Screen.Planting
import ScreenMarkup.Proofs.Screen.Renaming
import ScreenMarkup.Proofs.Screen.Restyle
import ScreenMarkup.Proofs.Screen.Shape
import ScreenMarkup.Proofs.Screen.Skipping
import ScreenMarkup.Proofs.Screen.Stacking
import ScreenMarkup.Proofs.Screen.Tree
import ScreenMarkup.Proofs.Screen.WellFormed
import ScreenMarkup.Proofs.Session.Attributes
import ScreenMarkup.Proofs.Session.Bindings
import ScreenMarkup.Proofs.Session.BoundColors
import ScreenMarkup.Proofs.Session.Building
import ScreenMarkup.Proofs.Session.Canvases
import ScreenMarkup.Proofs.Session.ClassRuns
import ScreenMarkup.Proofs.Session.Clearing
import ScreenMarkup.Proofs.Session.Copy
import ScreenMarkup.Proofs.Session.CopyBuilding
import ScreenMarkup.Proofs.Session.CopyRendering
import ScreenMarkup.Proofs.Session.Document
import ScreenMarkup.Proofs.Session.Draft
import ScreenMarkup.Proofs.Session.Events
import ScreenMarkup.Proofs.Session.Failures
import ScreenMarkup.Proofs.Session.Focusing
import ScreenMarkup.Proofs.Session.Frame
import ScreenMarkup.Proofs.Session.Grounded
import ScreenMarkup.Proofs.Session.Grouping
import ScreenMarkup.Proofs.Session.Growth
import ScreenMarkup.Proofs.Session.GrowthBuilding
import ScreenMarkup.Proofs.Session.Handling
import ScreenMarkup.Proofs.Session.Hearing
import ScreenMarkup.Proofs.Session.InlineStyles
import ScreenMarkup.Proofs.Session.Integrity
import ScreenMarkup.Proofs.Session.Layout
import ScreenMarkup.Proofs.Session.Naming
import ScreenMarkup.Proofs.Session.Omission
import ScreenMarkup.Proofs.Session.OmissionRendering
import ScreenMarkup.Proofs.Session.Operations
import ScreenMarkup.Proofs.Session.Pages
import ScreenMarkup.Proofs.Session.Paging
import ScreenMarkup.Proofs.Session.Placement
import ScreenMarkup.Proofs.Session.PlacementBuilding
import ScreenMarkup.Proofs.Session.PlacementCover
import ScreenMarkup.Proofs.Session.PlacementRendering
import ScreenMarkup.Proofs.Session.PlacementSteps
import ScreenMarkup.Proofs.Session.Position
import ScreenMarkup.Proofs.Session.Reaching
import ScreenMarkup.Proofs.Session.Redrawing
import ScreenMarkup.Proofs.Session.Refreshing
import ScreenMarkup.Proofs.Session.Refusal
import ScreenMarkup.Proofs.Session.Register
import ScreenMarkup.Proofs.Session.Renaming
import ScreenMarkup.Proofs.Session.Rendering
import ScreenMarkup.Proofs.Session.SiteBuilding
import ScreenMarkup.Proofs.Session.SiteRendering
import ScreenMarkup.Proofs.Session.SiteSteps
import ScreenMarkup.Proofs.Session.Sites
import ScreenMarkup.Proofs.Session.StackingOrder
import ScreenMarkup.Proofs.Session.Stepping
import ScreenMarkup.Proofs.Session.Syncing
import ScreenMarkup.Proofs.Session.Throttling
import ScreenMarkup.Proofs.Session.Top
import ScreenMarkup.Proofs.Session.TopRuns
import ScreenMarkup.Proofs.Session.Turning
import ScreenMarkup.Proofs.Session.Visibility
import ScreenMarkup.Proofs.Session.WellFormed
import ScreenMarkup.Proofs.Session.WriteOrder
import ScreenMarkup.Proofs.Session.WritePaths
import ScreenMarkup.Proofs.Session.WriteRuns
import ScreenMarkup.Proofs.State.Canonical
import ScreenMarkup.Proofs.State.Dependency
import ScreenMarkup.Proofs.State.FloatText
import ScreenMarkup.Proofs.State.Ledger
import ScreenMarkup.Proofs.State.Notices
import ScreenMarkup.Proofs.State.Placeholder
import ScreenMarkup.Proofs.State.Substitution
import ScreenMarkup.Proofs.State.Writes
import ScreenMarkup.Proofs.Style.Alignment
import ScreenMarkup.Proofs.Style.Cascade
import ScreenMarkup.Proofs.Style.Color
import ScreenMarkup.Proofs.Style.Composition
import ScreenMarkup.Proofs.Style.Lexing
import ScreenMarkup.Proofs.Style.Position
import ScreenMarkup.Proofs.Style.RoundTrip
import ScreenMarkup.Proofs.Style.Splitting
import ScreenMarkup.Proofs.Text.Words
import ScreenMarkup.Session.Attribute
import ScreenMarkup.Session.Gesture
import ScreenMarkup.Session.Operation
import ScreenMarkup.Session.Render
import ScreenMarkup.State.Ledger
