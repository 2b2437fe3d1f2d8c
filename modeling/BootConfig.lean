import BootConfig.Calendar
import BootConfig.Data.Graph
import BootConfig.Data.Objects
import BootConfig.Data.Overlay
import BootConfig.Data.Scalar
import BootConfig.Data.Value
import BootConfig.Environment
import BootConfig.Environment.File
import BootConfig.Files
import BootConfig.Fingerprint.Metric
import BootConfig.Fingerprint.Registry
import BootConfig.Fingerprint.Sha256
import BootConfig.Flags
import BootConfig.Journal.Layout
import BootConfig.Journal.Logbook
import BootConfig.Journal.Notice
import BootConfig.Journal.Rotation
import BootConfig.Journal.Setup
import BootConfig.Journal.Template
import BootConfig.Load.Error
import BootConfig.Load.File
import BootConfig.Load.Merging
import BootConfig.Locator
import BootConfig.Main
import BootConfig.Number.Double
import BootConfig.Number.Numeral
import BootConfig.Number.Shortest
import BootConfig.Options.CommandLine
import BootConfig.Options.Conversion
import BootConfig.Options.Grammar
import BootConfig.Options.Overview
import BootConfig.Options.Truth
import BootConfig.Placeholder
import BootConfig.Program
import BootConfig.Program.Run
import BootConfig.Program.World
import BootConfig.Proofs.Locator.Occurrence
import BootConfig.Proofs.Options.Argument
import BootConfig.Proofs.Options.Mentions
import BootConfig.Schema.Check
import BootConfig.Schema.Coercion
import BootConfig.Schema.FieldType
import BootConfig.Schema.Ingester
import BootConfig.Schema.Issue
import BootConfig.Session
import BootConfig.Startup
import BootConfig.Text.Base64
import BootConfig.Text.Basic
import BootConfig.Text.Blank
import BootConfig.Text.Case
import BootConfig.Text.Case.Table
import BootConfig.Text.Digit
import BootConfig.Text.Letter
import BootConfig.Text.Paragraph
import BootConfig.Text.Printable
import BootConfig.Text.Quoted
import BootConfig.Text.Unwritable
import BootConfig.Text.Utf16
import BootConfig.Text.Utf8
import BootConfig.Yaml.Cursor
import BootConfig.Yaml.Document
import BootConfig.Yaml.Error
import BootConfig.Yaml.Event
import BootConfig.Yaml.MergeKeys
import BootConfig.Yaml.Node
import BootConfig.Yaml.ScalarValue
import BootConfig.Yaml.Source
import BootConfig.Yaml.Tag
import BootConfig.Yaml.Token
import BootConfig.Yaml.Token.Lexer
import BootConfig.Yaml.Token.Property
import BootConfig.Yaml.Token.Scalar
import BootConfig.Proofs.Locator.LastOccurrence
import BootConfig.Proofs.Locator.AnyPosition
import BootConfig.Proofs.Locator.FullTable
import BootConfig.Proofs.Locator.Agreement
import BootConfig.Proofs.Data.Overlay
import BootConfig.Proofs.Schema.Fields
import BootConfig.Proofs.Schema.Sections
import BootConfig.Proofs.Load.Absorb
import BootConfig.Proofs.Flags.Apply
import BootConfig.Proofs.Flags.Declared
import BootConfig.Proofs.Flags.Given
import BootConfig.Proofs.Schema.Ingester
import BootConfig.Proofs.Schema.Nested
import BootConfig.Proofs.Startup.Precedence
import BootConfig.Proofs.Environment.File
import BootConfig.Proofs.Failing
import BootConfig.Proofs.Load.Failure
import BootConfig.Proofs.Session.Fingerprint
import BootConfig.Proofs.Yaml.Flattening
import BootConfig.Proofs.Yaml.Construction
import BootConfig.Proofs.Load.Typed
import BootConfig.Proofs.Yaml.UniqueKeys
import BootConfig.Proofs.Yaml.WorkList
import BootConfig.Proofs.Yaml.DistinctKeys
import BootConfig.Proofs.Yaml.AcceptedDocument
import BootConfig.Proofs.Schema.Described
import BootConfig.Proofs.Schema.Settled
import BootConfig.Proofs.Session.Settings
import BootConfig.Proofs.Schema.Alike
import BootConfig.Proofs.Load.Frame
import BootConfig.Proofs.Fingerprint.Registries
import BootConfig.Proofs.Fingerprint.Sharing
import BootConfig.Proofs.Startup.Transitions
import BootConfig.Proofs.Options.Groups
import BootConfig.Proofs.Options.Bindings
import BootConfig.Proofs.Startup.Reordering
import BootConfig.Proofs.Number.Decimal
import BootConfig.Proofs.Flags.Written
import BootConfig.Proofs.Flags.Expressed
import BootConfig.Proofs.Flags.Places
import BootConfig.Proofs.Flags.Order
import BootConfig.Proofs.Flags.Surroundings
import BootConfig.Proofs.Flags.Unknown
import BootConfig.Proofs.Flags.Single
import BootConfig.Proofs.Flags.Members
import BootConfig.Proofs.Flags.Items
import BootConfig.Proofs.Load.OneLeaf
import BootConfig.Proofs.Text.Folding
import BootConfig.Proofs.Flags.Choices
import BootConfig.Proofs.Placeholder.Split
import BootConfig.Proofs.Startup.Neutral
import BootConfig.Proofs.Journal.Files
import BootConfig.Proofs.Journal.Delivered
import BootConfig.Proofs.Program.Configured
import BootConfig.Proofs.Program.Effects
import BootConfig.Proofs.Text.Escaped
import BootConfig.Proofs.Placeholder.RawEnvironment
import BootConfig.Proofs.Placeholder.Cut
import BootConfig.Proofs.Placeholder.Braces
import BootConfig.Proofs.Data.KeyIdentity
import BootConfig.Proofs.Data.Layers
import BootConfig.Proofs.Data.Pathwise
import BootConfig.Proofs.Data.Copies
import BootConfig.Proofs.Data.Held
import BootConfig.Proofs.Data.Stepwise
import BootConfig.Proofs.Data.Unfolded
import BootConfig.Proofs.Yaml.BoundKeys
import BootConfig.Proofs.Load.Merging
