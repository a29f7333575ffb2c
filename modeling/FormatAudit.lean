import FormatAudit.Decoding.Basic
import FormatAudit.Decoding.Definition
import FormatAudit.Decoding.Tree
import FormatAudit.Definition.Basic
import FormatAudit.Definition.Fault
import FormatAudit.Definition.File
import FormatAudit.Definition.Reading
import FormatAudit.Failure
import FormatAudit.Fields
import FormatAudit.Files.Building
import FormatAudit.Files.FileTree
import FormatAudit.Files.Path
import FormatAudit.Fixture
import FormatAudit.Formatter.Basic
import FormatAudit.Formatter.Call
import FormatAudit.Formatter.Command
import FormatAudit.Formatter.Scripted
import FormatAudit.Interpreter.Binding
import FormatAudit.Interpreter.CommandProbe
import FormatAudit.Interpreter.Selection
import FormatAudit.Interpreter.Track
import FormatAudit.Json.Document
import FormatAudit.Json.Fault
import FormatAudit.Json.Numeral
import FormatAudit.Json.StringToken
import FormatAudit.Number.Binary64
import FormatAudit.Number.Shortest
import FormatAudit.Options
import FormatAudit.ParserName
import FormatAudit.Process
import FormatAudit.Setting
import FormatAudit.Shell.Arithmetic
import FormatAudit.Shell.Builtin.Basic
import FormatAudit.Shell.Builtin.Signals
import FormatAudit.Shell.Builtin.Streams
import FormatAudit.Shell.Builtin.Variables
import FormatAudit.Shell.Command
import FormatAudit.Shell.Condition
import FormatAudit.Shell.Disk
import FormatAudit.Shell.Escape
import FormatAudit.Shell.Expansion
import FormatAudit.Shell.Launcher
import FormatAudit.Shell.Pattern
import FormatAudit.Shell.Printf
import FormatAudit.Shell.Process
import FormatAudit.Shell.Program
import FormatAudit.Shell.Regex
import FormatAudit.Shell.Regex.Reading
import FormatAudit.Shell.Run
import FormatAudit.Shell.Script
import FormatAudit.Shell.Script.Reading
import FormatAudit.Shell.Session
import FormatAudit.Shell.Task
import FormatAudit.Shell.Text
import FormatAudit.Shell.Token.Basic
import FormatAudit.Shell.Token.Reading
import FormatAudit.Shell.Tool.Basic
import FormatAudit.Shell.Tool.Edit
import FormatAudit.Shell.Tool.Lines
import FormatAudit.Shell.Tool.Named
import FormatAudit.Shell.Tool.Search
import FormatAudit.Shell.Tool.Translate
import FormatAudit.Snapshot.Basic
import FormatAudit.Snapshot.Directory
import FormatAudit.StructureSwitch
import FormatAudit.Suite.Basic
import FormatAudit.Suite.Error
import FormatAudit.Suite.Report
import FormatAudit.Suite.Run
import FormatAudit.SystemError
import FormatAudit.Text.Blank
import FormatAudit.Text.Digit
import FormatAudit.Text.Invisible
import FormatAudit.Text.LineEnds
import FormatAudit.Text.Quoted
import FormatAudit.Text.Substring
import FormatAudit.Text.Utf8
import FormatAudit.Text.Visible
import FormatAudit.Tree.Basic
import FormatAudit.Tree.Cleaning
import FormatAudit.Tree.Traversal
import FormatAudit.Tree.Written
import FormatAudit.Verification
import FormatAudit.Version.Basic
import FormatAudit.Version.Order
import FormatAudit.Version.Range
import FormatAudit.Version.Reported
import FormatAudit.Version.Requirement
import FormatAudit.Yaml.BlockText
import FormatAudit.Yaml.Document
import FormatAudit.Yaml.Grammar
import FormatAudit.Yaml.Merge
import FormatAudit.Yaml.Node
import FormatAudit.Yaml.Plain
import FormatAudit.Yaml.Position
import FormatAudit.Yaml.Quoted
import FormatAudit.Yaml.Scalar
import FormatAudit.Yaml.Token.Basic
import FormatAudit.Yaml.Token.Frontier
import FormatAudit.Yaml.Token.Reading
import FormatAudit.Yaml.Token.Word
import FormatAudit.Proofs.Formatter.Steps
import FormatAudit.Proofs.Results
import FormatAudit.Proofs.Text.Utf8
import FormatAudit.Proofs.Files.Naming
import FormatAudit.Proofs.Snapshot.Store
import FormatAudit.Proofs.Suite.Units
import FormatAudit.Proofs.Suite.FinalStore
import FormatAudit.Proofs.Verification
import FormatAudit.Proofs.Suite.Success
import FormatAudit.Proofs.Formatter.Agreement
import FormatAudit.Proofs.Suite.Isolation
import FormatAudit.Proofs.Fields
import FormatAudit.Proofs.Tree.Order
import FormatAudit.Proofs.Tree.Pruning
import FormatAudit.Proofs.RoundTrip
import FormatAudit.Proofs.Suite.UnitNames
import FormatAudit.Proofs.Suite.Calls
import FormatAudit.Proofs.Interpreter.Selection
import FormatAudit.Proofs.Suite.Identity
import FormatAudit.Proofs.Formatter.Flags
import FormatAudit.Proofs.Files.Loading
import FormatAudit.Proofs.Text.LineEnds
import FormatAudit.Proofs.Suite.LineEnds
import FormatAudit.Proofs.Version.Reading
import FormatAudit.Proofs.Version.Requirement
import FormatAudit.Proofs.Text.Blank
import FormatAudit.Proofs.Version.Range
import FormatAudit.Proofs.Text.Lines
import FormatAudit.Proofs.Snapshot.Directory
import FormatAudit.Proofs.Interpreter.Detection
import FormatAudit.Proofs.VerificationFaults
import FormatAudit.Proofs.Suite.Attribution
import FormatAudit.Proofs.Decoding.Values
import FormatAudit.Proofs.Decoding.Definition
import FormatAudit.Proofs.Files.Source
import FormatAudit.Proofs.Snapshot.Parts
import FormatAudit.Proofs.Version.Text
import FormatAudit.Proofs.Version.Reported
import FormatAudit.Proofs.Json.Numeral
import FormatAudit.Proofs.Decoding.Trees
import FormatAudit.Proofs.Decoding.Places
import FormatAudit.Proofs.Decoding.Integers
import FormatAudit.Proofs.Tree.Parts
import FormatAudit.Proofs.Tree.TopDown
import FormatAudit.Proofs.Tree.Visits
import FormatAudit.Proofs.Tree.Reordering
import FormatAudit.Proofs.Decoding.Agreement
import FormatAudit.Proofs.FieldOrder
import FormatAudit.Proofs.Interpreter.Search
import FormatAudit.Proofs.Version.Releases
import FormatAudit.Proofs.Interpreter.DefaultTracks
import FormatAudit.Proofs.Snapshot.History
import FormatAudit.Proofs.Files.Listing
import FormatAudit.Proofs.Snapshot.Location
