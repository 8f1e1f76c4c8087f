import ClassFactory.CommandLine
import ClassFactory.Compilation
import ClassFactory.Component.Declarations
import ClassFactory.Component.Synthesis
import ClassFactory.Component.Type
import ClassFactory.Configuration
import ClassFactory.Decimal.Shortest
import ClassFactory.Decimal.Text
import ClassFactory.Diagnostic.Basic
import ClassFactory.Diagnostic.Json
import ClassFactory.DocBlock
import ClassFactory.Factory.Call
import ClassFactory.Factory.Collect
import ClassFactory.Factory.Registry
import ClassFactory.Factory.Value
import ClassFactory.Guard
import ClassFactory.Json.Printer
import ClassFactory.Json.Reader
import ClassFactory.Json.Value
import ClassFactory.Keyed
import ClassFactory.Lifecycle
import ClassFactory.Main
import ClassFactory.Mixins.Assembly
import ClassFactory.Mixins.Dependency
import ClassFactory.Mixins.Resolution
import ClassFactory.Mixins.Surface
import ClassFactory.Options
import ClassFactory.Proofs.Component.DeclaredProps
import ClassFactory.Proofs.Component.InitialState
import ClassFactory.Proofs.Component.InstanceMembers
import ClassFactory.Proofs.Component.Published
import ClassFactory.Proofs.Component.Render
import ClassFactory.Proofs.Component.RenderMethod
import ClassFactory.Proofs.Component.State
import ClassFactory.Proofs.Component.Typed
import ClassFactory.Proofs.Correspondence
import ClassFactory.Proofs.DocBlock.Layout
import ClassFactory.Proofs.DocBlock.Leading
import ClassFactory.Proofs.DocBlock.Signatures
import ClassFactory.Proofs.Factory.Accounts
import ClassFactory.Proofs.Factory.Declared
import ClassFactory.Proofs.Factory.Identities
import ClassFactory.Proofs.Factory.Literal
import ClassFactory.Proofs.Factory.Names
import ClassFactory.Proofs.Factory.Operations
import ClassFactory.Proofs.Factory.Overwritten
import ClassFactory.Proofs.Factory.Recording
import ClassFactory.Proofs.Factory.Specified
import ClassFactory.Proofs.Guard.Interfaces
import ClassFactory.Proofs.Guard.Members
import ClassFactory.Proofs.Guard.Messages
import ClassFactory.Proofs.Json.RoundTrip
import ClassFactory.Proofs.Keyed
import ClassFactory.Proofs.Mixins.Ambiguity
import ClassFactory.Proofs.Mixins.Arrivals
import ClassFactory.Proofs.Mixins.Assembled
import ClassFactory.Proofs.Mixins.Chain
import ClassFactory.Proofs.Mixins.Contents
import ClassFactory.Proofs.Mixins.Contest
import ClassFactory.Proofs.Mixins.Copies
import ClassFactory.Proofs.Mixins.Crown
import ClassFactory.Proofs.Mixins.Cycles
import ClassFactory.Proofs.Mixins.Dominance
import ClassFactory.Proofs.Mixins.Findings
import ClassFactory.Proofs.Mixins.HookConflicts
import ClassFactory.Proofs.Mixins.Locality
import ClassFactory.Proofs.Mixins.Meeting
import ClassFactory.Proofs.Mixins.Mirroring
import ClassFactory.Proofs.Mixins.Order
import ClassFactory.Proofs.Mixins.Outcome
import ClassFactory.Proofs.Mixins.Paths
import ClassFactory.Proofs.Mixins.Plain
import ClassFactory.Proofs.Mixins.Propagation
import ClassFactory.Proofs.Mixins.Provenance
import ClassFactory.Proofs.Mixins.Renaming
import ClassFactory.Proofs.Mixins.Rings
import ClassFactory.Proofs.Mixins.Rivalry
import ClassFactory.Proofs.Mixins.Seat
import ClassFactory.Proofs.Mixins.Sequence
import ClassFactory.Proofs.Mixins.Siblings
import ClassFactory.Proofs.Mixins.Signatures
import ClassFactory.Proofs.Mixins.Standing
import ClassFactory.Proofs.Mixins.StaticAmbiguity
import ClassFactory.Proofs.Mixins.Walk
import ClassFactory.Proofs.Mixins.Writes
import ClassFactory.Proofs.References
import ClassFactory.Proofs.Registry
import ClassFactory.Proofs.Report
import ClassFactory.Proofs.Script.Bindings
import ClassFactory.Proofs.Script.CallStarts
import ClassFactory.Proofs.Script.Elements
import ClassFactory.Proofs.Script.Expressions
import ClassFactory.Proofs.Script.Functions
import ClassFactory.Proofs.Script.Parsing
import ClassFactory.Proofs.Script.Scanning
import ClassFactory.Proofs.Script.Statements
import ClassFactory.Proofs.Source.Lines
import ClassFactory.Proofs.Stages
import ClassFactory.Proofs.Text.Suggestion
import ClassFactory.Proofs.Types.Absence
import ClassFactory.Proofs.Types.Assignable
import ClassFactory.Proofs.Types.Composite
import ClassFactory.Proofs.Types.Degradation
import ClassFactory.Proofs.Types.Equivalence
import ClassFactory.Proofs.Types.Joins
import ClassFactory.Proofs.Types.NormalForm
import ClassFactory.Proofs.Types.Normalization
import ClassFactory.Proofs.Types.Reading
import ClassFactory.Proofs.Types.Reads
import ClassFactory.Proofs.Types.Respacing
import ClassFactory.Proofs.Types.RoundTrip
import ClassFactory.Proofs.Types.Sources
import ClassFactory.Proofs.Types.Spacing
import ClassFactory.Proofs.Types.Tandem
import ClassFactory.Proofs.Usage.Acceptance
import ClassFactory.Proofs.Usage.Children
import ClassFactory.Proofs.Usage.Constructions
import ClassFactory.Proofs.Usage.Emptied
import ClassFactory.Proofs.Usage.Inferred
import ClassFactory.Proofs.Usage.Lexical
import ClassFactory.Proofs.Usage.Members
import ClassFactory.Proofs.Usage.Omission
import ClassFactory.Proofs.Usage.Required
import ClassFactory.Proofs.Usage.Scopes
import ClassFactory.Proofs.Usage.StateFields
import ClassFactory.Proofs.Usage.StateWrites
import ClassFactory.Proofs.Usage.Steps
import ClassFactory.Proofs.Usage.Untyped
import ClassFactory.Proofs.Usage.Values
import ClassFactory.Proofs.Usage.Visits
import ClassFactory.References
import ClassFactory.Report
import ClassFactory.Script.Bindings
import ClassFactory.Script.Elements
import ClassFactory.Script.Expressions
import ClassFactory.Script.Functions
import ClassFactory.Script.Nodes
import ClassFactory.Script.Parse
import ClassFactory.Script.Parsing
import ClassFactory.Script.Statements
import ClassFactory.Script.Token
import ClassFactory.Script.Tree
import ClassFactory.Source.Files
import ClassFactory.Source.Lines
import ClassFactory.Source.Site
import ClassFactory.Text.Blank
import ClassFactory.Text.Bytes
import ClassFactory.Text.Letters
import ClassFactory.Text.Search
import ClassFactory.Text.Suggestion
import ClassFactory.Types.Assignable
import ClassFactory.Types.Basic
import ClassFactory.Types.Reader
import ClassFactory.Types.Text
import ClassFactory.Types.Union
import ClassFactory.Usage.Check
import ClassFactory.Usage.Checks
import ClassFactory.Usage.Infer
import ClassFactory.Validator
