import CompositionGen.Build
import CompositionGen.BuildUnit
import CompositionGen.BuildUnit.Discovery
import CompositionGen.Builder
import CompositionGen.Builder.Run
import CompositionGen.CommandLine
import CompositionGen.CommandLine.Grammar
import CompositionGen.Compile
import CompositionGen.Compile.Activity
import CompositionGen.Compile.Job
import CompositionGen.Compile.Output
import CompositionGen.Compile.Pool
import CompositionGen.Compile.Result
import CompositionGen.Composition
import CompositionGen.Composition.Record
import CompositionGen.Demo.Api
import CompositionGen.Demo.Example
import CompositionGen.Demo.PipelineExample
import CompositionGen.Dictionary
import CompositionGen.Draft
import CompositionGen.Draft.Finalize
import CompositionGen.Draft.Merge
import CompositionGen.Duration
import CompositionGen.FieldPath
import CompositionGen.FieldPath.Parser
import CompositionGen.FieldPath.PathSet
import CompositionGen.FieldPath.Record
import CompositionGen.Files
import CompositionGen.Files.Content
import CompositionGen.Files.Error
import CompositionGen.Files.Path
import CompositionGen.Files.Record
import CompositionGen.Files.Tree
import CompositionGen.Files.Walk
import CompositionGen.Instant
import CompositionGen.Json
import CompositionGen.Json.Describe
import CompositionGen.Json.Document
import CompositionGen.Json.Parser
import CompositionGen.Json.Pointer
import CompositionGen.Json.Printer
import CompositionGen.Json.Record
import CompositionGen.Json.Token
import CompositionGen.Library
import CompositionGen.Library.Export
import CompositionGen.Main
import CompositionGen.Object
import CompositionGen.Object.Kind
import CompositionGen.Object.Kubernetes
import CompositionGen.Object.Shape
import CompositionGen.Patch
import CompositionGen.Patch.Record
import CompositionGen.Patch.Validation
import CompositionGen.Process
import CompositionGen.Process.Builtin
import CompositionGen.Process.Channel
import CompositionGen.Process.Frame
import CompositionGen.Process.Invoke
import CompositionGen.Process.Machine
import CompositionGen.Process.Program
import CompositionGen.Process.Redirection
import CompositionGen.Process.Roster
import CompositionGen.Process.Start
import CompositionGen.Process.Step
import CompositionGen.Process.Turn
import CompositionGen.Program
import CompositionGen.Registry
import CompositionGen.Report
import CompositionGen.Schema
import CompositionGen.Schema.Infer
import CompositionGen.Schema.Node
import CompositionGen.Script
import CompositionGen.Script.Arithmetic
import CompositionGen.Script.Expansion
import CompositionGen.Script.Parser
import CompositionGen.Script.Pathname
import CompositionGen.Script.Pattern
import CompositionGen.Script.Token
import CompositionGen.Script.Variables
import CompositionGen.Script.Word
import CompositionGen.Signal
import CompositionGen.Template
import CompositionGen.Text.Base64
import CompositionGen.Text.Binary64
import CompositionGen.Text.Blank
import CompositionGen.Text.ByteString
import CompositionGen.Text.Decimal
import CompositionGen.Text.Lines
import CompositionGen.Text.Quoted
import CompositionGen.Text.Split
import CompositionGen.Text.Unprintable
import CompositionGen.Text.Utf8
import CompositionGen.Toolchain
import CompositionGen.Toolchain.Message
import CompositionGen.Utility
import CompositionGen.Utility.Concatenation
import CompositionGen.Utility.Condition
import CompositionGen.Utility.Effect
import CompositionGen.Utility.Entries
import CompositionGen.Utility.Escape
import CompositionGen.Utility.Format
import CompositionGen.Utility.Name
import CompositionGen.Utility.Options
import CompositionGen.Utility.Real
import CompositionGen.Utility.Span
import CompositionGen.Yaml
import CompositionGen.Yaml.Number
import CompositionGen.Yaml.Scalar
import CompositionGen.Proofs.FieldPath.Matching
import CompositionGen.Proofs.FieldPath.Reading
import CompositionGen.Proofs.FieldPath.Grammar
import CompositionGen.Proofs.FieldPath.Scanning
import CompositionGen.Proofs.Outcome
import CompositionGen.Proofs.Sequences
import CompositionGen.Proofs.Json.Members
import CompositionGen.Proofs.Patch.Validity
import CompositionGen.Proofs.Draft.Calls
import CompositionGen.Proofs.Draft.Finalization
import CompositionGen.Proofs.Draft.Soundness
import CompositionGen.Proofs.Draft.Faithfulness
import CompositionGen.Proofs.Draft.Failure
import CompositionGen.Proofs.Schema.Trails
import CompositionGen.Proofs.Pool.Moves
import CompositionGen.Proofs.Pool.Accounting
import CompositionGen.Proofs.Pool.Completion
import CompositionGen.Proofs.Pool.Schedule
import CompositionGen.Proofs.Text.Splitting
import CompositionGen.Proofs.Text.Encoding
import CompositionGen.Proofs.Text.ByteStrings
import CompositionGen.Proofs.Text.Numerals
import CompositionGen.Proofs.Files.Paths
import CompositionGen.Proofs.Files.Trees
import CompositionGen.Proofs.Files.Following
import CompositionGen.Proofs.BuildUnit.Naming
import CompositionGen.Proofs.Draft.Unchecked
import CompositionGen.Proofs.Json.Fields
import CompositionGen.Proofs.Composition.ReadBack
import CompositionGen.Proofs.Draft.ReadBack
import CompositionGen.Proofs.BuildUnit.Search
import CompositionGen.Proofs.Files.Changes
import CompositionGen.Proofs.Files.Walks
import CompositionGen.Proofs.Builder.Runs
import CompositionGen.Proofs.Files.Reaching
import CompositionGen.Proofs.Files.Writing
import CompositionGen.Proofs.Builder.Directory
import CompositionGen.Proofs.FieldPath.Writing
import CompositionGen.Proofs.Builder.Visits
import CompositionGen.Proofs.Registry.Loading
import CompositionGen.Proofs.Build.Counting
import CompositionGen.Proofs.Draft.Commutation
import CompositionGen.Proofs.Patch.Spelling
import CompositionGen.Proofs.Build.Acts
import CompositionGen.Proofs.Composition.NormalForm
import CompositionGen.Proofs.Pool.Delivery
import CompositionGen.Proofs.Build.Isolation
import CompositionGen.Proofs.Pool.Gauge
import CompositionGen.Proofs.Pool.Series
import CompositionGen.Proofs.Schema.Inference
import CompositionGen.Proofs.Draft.Merging
import CompositionGen.Proofs.Draft.Registration
import CompositionGen.Proofs.Schema.Growth
import CompositionGen.Proofs.Compile.Course
import CompositionGen.Proofs.Compile.Polling
import CompositionGen.Proofs.Schema.Paths
import CompositionGen.Proofs.Text.Replacing
import CompositionGen.Proofs.Toolchain.Expansion
import CompositionGen.Proofs.Draft.Keys
import CompositionGen.Proofs.Compile.Stages
import CompositionGen.Proofs.Compile.Results
import CompositionGen.Proofs.Text.Decoding
import CompositionGen.Proofs.Toolchain.Announcement
import CompositionGen.Proofs.FieldPath.Classes
import CompositionGen.Proofs.FieldPath.Refusal
import CompositionGen.Proofs.Registry.History
import CompositionGen.Proofs.Files.Listing
import CompositionGen.Proofs.Template.Assembly
import CompositionGen.Proofs.Json.Pointers
import CompositionGen.Proofs.Schema.References
import CompositionGen.Proofs.Files.Growing
import CompositionGen.Proofs.Utility.Effects
import CompositionGen.Proofs.Process.Evolution
import CompositionGen.Proofs.Process.Turns
import CompositionGen.Proofs.Process.Commands
import CompositionGen.Proofs.Process.Programs
import CompositionGen.Proofs.Process.Steps
import CompositionGen.Proofs.Compile.Evolution
import CompositionGen.Proofs.Script.Patterns
import CompositionGen.Proofs.Script.Arithmetic
