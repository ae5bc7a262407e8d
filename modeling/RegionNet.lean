import RegionNet.Word
import RegionNet.Elements
import RegionNet.DataError
import RegionNet.Dimensions
import RegionNet.Collection
import RegionNet.Collection.Indexed
import RegionNet.Ieee
import RegionNet.Decimal.Shortest
import RegionNet.Decimal.Text
import RegionNet.Text.Blank
import RegionNet.Text.Quoted
import RegionNet.Json
import RegionNet.Json.Syntax
import RegionNet.Json.Reader
import RegionNet.Json.Skip
import RegionNet.Json.Schema
import RegionNet.Bytes
import RegionNet.Buffer
import RegionNet.Error
import RegionNet.Link.Window
import RegionNet.Link.Ratio
import RegionNet.Link.Uniform
import RegionNet.Link.Policy
import RegionNet.Spec
import RegionNet.Parameter.Value
import RegionNet.Parameter.Map
import RegionNet.Text.Case
import RegionNet.Logging.DebugFlags
import RegionNet.Files.Error
import RegionNet.Files.Path
import RegionNet.Files.Tree
import RegionNet.Text.Alphanumeric
import RegionNet.Toml.Document
import RegionNet.Toml.Scan
import RegionNet.Decimal.Nearest
import RegionNet.Toml.Lexical
import RegionNet.Toml.Report
import RegionNet.Toml.Assembly
import RegionNet.Toml.Parser
import RegionNet.Config.Settings
import RegionNet.Config.Decode
import RegionNet.Config.Validation
import RegionNet.Config.Load
import RegionNet.Text.Utf8
import RegionNet.Bundle.Record
import RegionNet.Bundle.Stream
import RegionNet.Link.Basic
import RegionNet.Region.Port
import RegionNet.Region.Reference
import RegionNet.Region.Probe
import RegionNet.Region.Kind
import RegionNet.Region.Basic
import RegionNet.Factory
import RegionNet.Host
import RegionNet.Network.Basic
import RegionNet.Network.Topology
import RegionNet.Network.Layout
import RegionNet.Network.Run
import RegionNet.Network.Description
import RegionNet.Network.Checkpoint
import RegionNet.Network.Workspace
import RegionNet.Runner
import RegionNet.Snapshot
import RegionNet.Main
import RegionNet.Proofs.Ranges
import RegionNet.Proofs.Splitter
import RegionNet.Proofs.Policy
import RegionNet.Proofs.Session
import RegionNet.Proofs.Routing
import RegionNet.Proofs.LinkTable
import RegionNet.Proofs.Reachable
import RegionNet.Proofs.Propagation
import RegionNet.Proofs.Tiling
import RegionNet.Proofs.Blocks
import RegionNet.Proofs.Coverage
import RegionNet.Proofs.Wiring
import RegionNet.Proofs.Plugs
import RegionNet.Proofs.Edits
import RegionNet.Proofs.Integrity
import RegionNet.Proofs.LinkOrder
import RegionNet.Proofs.Initializing
import RegionNet.Proofs.Inducing
import RegionNet.Proofs.Ordering
import RegionNet.Proofs.ExplicitDimensions
import RegionNet.Proofs.OutputSizing
import RegionNet.Proofs.InputLayout
import RegionNet.Proofs.Initialization
import RegionNet.Proofs.NodeAddressing
import RegionNet.Proofs.CollectionIndex
import RegionNet.Proofs.BufferStates
import RegionNet.Proofs.LaidOut
import RegionNet.Proofs.SourceBounds
import RegionNet.Proofs.Settled
import RegionNet.Proofs.SettledCommands
import RegionNet.Proofs.Declared
import RegionNet.Proofs.Merging
import RegionNet.Proofs.ReferenceRuns
import RegionNet.Proofs.Phases
import RegionNet.Proofs.ParameterConversion
import RegionNet.Proofs.Halving
import RegionNet.Proofs.SettingLayers
import RegionNet.Proofs.StreamClaims
import RegionNet.Proofs.HostLifecycle
import RegionNet.Proofs.FileTree
import RegionNet.Proofs.BundleWriting
import RegionNet.Proofs.Saving
import RegionNet.Proofs.AcceptedWindows
import RegionNet.Proofs.InductionLoop
import RegionNet.Proofs.BlockEnumeration
import RegionNet.Proofs.ReadingTokens
import RegionNet.Proofs.ReadingShapes
import RegionNet.Proofs.StructureFile
import RegionNet.Proofs.SavedStates
import RegionNet.Proofs.Reloading
import RegionNet.Proofs.Relinking
import RegionNet.Proofs.RoundTrip
import RegionNet.Proofs.WordSized
