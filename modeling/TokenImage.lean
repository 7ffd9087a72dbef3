import TokenImage.Token.Basic
import TokenImage.Token.Display
import TokenImage.Token.Json
import TokenImage.Token.Structure
import TokenImage.Memory.Image
import TokenImage.ForeignTree.Listing
import TokenImage.Node.Structure
import TokenImage.Scenario.Run
import TokenImage.Proofs.Graph.Depth
import TokenImage.Proofs.Graph.Paths
import TokenImage.Proofs.Decoder.WellFormed
import TokenImage.Proofs.Decoder.Footprint
import TokenImage.Proofs.Decoder.Limit
import TokenImage.Proofs.Decoder.Meaning
import TokenImage.Proofs.Decoder.Preorder
import TokenImage.Proofs.Memory.Fields
import TokenImage.Proofs.Memory.Stores
import TokenImage.Proofs.Memory.Growth
import TokenImage.Proofs.Tree.Records
import TokenImage.Proofs.Tree.Building
import TokenImage.Proofs.Tree.Reading
import TokenImage.Proofs.Tree.Pieces
import TokenImage.Proofs.Tree.Spare
import TokenImage.Proofs.Engine.Results
import TokenImage.Proofs.Engine.Calls
import TokenImage.Proofs.Engine.Parses
import TokenImage.Proofs.Tree.RoundTrip
import TokenImage.Proofs.Engine.Ledger
import TokenImage.Proofs.Decoder.Events
import TokenImage.Proofs.Engine.Live
import TokenImage.Proofs.Engine.ParseCalls
import TokenImage.Proofs.Engine.Tracking
import TokenImage.Proofs.Scenario.Calls
import TokenImage.Proofs.Scenario.Notes
import TokenImage.Proofs.Engine.Frame
import TokenImage.Proofs.Engine.Views
import TokenImage.Proofs.Engine.Releases
import TokenImage.Proofs.Engine.EndToEnd
import TokenImage.Proofs.Tree.NormalForm
import TokenImage.Proofs.Graph.Measures
import TokenImage.Proofs.Engine.Measures
import TokenImage.Proofs.Engine.Routes
import TokenImage.Proofs.Engine.Trees
import TokenImage.Proofs.Engine.Likeness
import TokenImage.Proofs.Scenario.Conservation
import TokenImage.Proofs.Scenario.Names
import TokenImage.Proofs.Scenario.Isolation
import TokenImage.Proofs.Scenario.Surface
import TokenImage.Proofs.Scenario.Refinement
import TokenImage.Proofs.Scenario.Unobservable
import TokenImage.Proofs.Text.QuotedReading
import TokenImage.Proofs.Token.Display
import TokenImage.Proofs.Token.Json
import TokenImage.Proofs.Error.Builders
