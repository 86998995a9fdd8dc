import HyperSchema.Analysis
import HyperSchema.Command.ApplyRules
import HyperSchema.Command.Configuration
import HyperSchema.Command.Error
import HyperSchema.Command.Generation
import HyperSchema.Command.Line
import HyperSchema.Command.Run
import HyperSchema.Decimal.Binary64
import HyperSchema.Decimal.Scale
import HyperSchema.Decimal.Shortest
import HyperSchema.Declaration.DocText
import HyperSchema.Declaration.Generic
import HyperSchema.Declaration.Lexer
import HyperSchema.Declaration.Parser
import HyperSchema.Declaration.Printer
import HyperSchema.Declaration.Rule
import HyperSchema.Declaration.RuleSet
import HyperSchema.Declaration.Spelling
import HyperSchema.Declaration.Token
import HyperSchema.Declaration.Type
import HyperSchema.Endpoint.Address
import HyperSchema.Endpoint.Ambiguity
import HyperSchema.Endpoint.Basic
import HyperSchema.Endpoint.Encode
import HyperSchema.Endpoint.Link
import HyperSchema.Endpoint.LinkFault
import HyperSchema.Endpoint.Method
import HyperSchema.Endpoint.Name
import HyperSchema.Endpoint.RequestShape
import HyperSchema.Endpoint.Resources
import HyperSchema.Entries
import HyperSchema.Files.Access
import HyperSchema.Files.Path
import HyperSchema.Files.Tree
import HyperSchema.Json.Basic
import HyperSchema.Json.Pointer
import HyperSchema.Json.Reader
import HyperSchema.Json.Writer
import HyperSchema.Main
import HyperSchema.Naming
import HyperSchema.Proofs.Declaration.Comment
import HyperSchema.Proofs.Declaration.Elements
import HyperSchema.Proofs.Declaration.Pieces
import HyperSchema.Proofs.Declaration.Printable
import HyperSchema.Proofs.Declaration.Spelling
import HyperSchema.Proofs.Declaration.Structure
import HyperSchema.Proofs.Text.Parts
import HyperSchema.Schema.Error
import HyperSchema.Schema.Flat
import HyperSchema.Schema.Inline
import HyperSchema.Schema.Node
import HyperSchema.Schema.Record
import HyperSchema.Schema.Reference
import HyperSchema.Schema.Walk
import HyperSchema.Setting
import HyperSchema.Text.Alphabetic
import HyperSchema.Text.Blank
import HyperSchema.Text.Hex
import HyperSchema.Text.Infix
import HyperSchema.Text.Lines
import HyperSchema.Text.Numeric
import HyperSchema.Text.Percent
import HyperSchema.Text.Printable
import HyperSchema.Text.Quoted
import HyperSchema.Text.Ranges
import HyperSchema.Text.Uppercase
import HyperSchema.Text.Utf8
import HyperSchema.Toml.Number
import HyperSchema.Toml.Reader
import HyperSchema.Toml.Table
import HyperSchema.Toml.Text
import HyperSchema.Warning
import HyperSchema.Proofs.Declaration.Layout
import HyperSchema.Proofs.Declaration.Recognition
import HyperSchema.Proofs.Declaration.Reader
import HyperSchema.Proofs.Declaration.Grouping
import HyperSchema.Proofs.Declaration.Fragments
import HyperSchema.Proofs.Declaration.Rereading
import HyperSchema.Proofs.Declaration.RoundTrip
import HyperSchema.Proofs.Declaration.Lexemes
import HyperSchema.Proofs.Declaration.Image
import HyperSchema.Proofs.Declaration.Formatting
import HyperSchema.Proofs.Declaration.Rewriting
import HyperSchema.Proofs.Json.Part
import HyperSchema.Proofs.Schema.Inlining
import HyperSchema.Proofs.Json.Equality
import HyperSchema.Proofs.Outcome
import HyperSchema.Proofs.Schema.Expansion
import HyperSchema.Proofs.Schema.Visits
import HyperSchema.Proofs.Schema.Flattening
import HyperSchema.Proofs.Schema.FlatDocument
import HyperSchema.Proofs.Schema.Levels
import HyperSchema.Proofs.Schema.Idempotence
import HyperSchema.Proofs.Endpoint.RequestShape
import HyperSchema.Proofs.Endpoint.Extraction
import HyperSchema.Proofs.Endpoint.Unresolved
import HyperSchema.Proofs.Endpoint.FlatRequest
import HyperSchema.Proofs.Schema.Places
import HyperSchema.Proofs.Schema.Agreement
import HyperSchema.Proofs.Schema.Frame
import HyperSchema.Proofs.Json.Below
import HyperSchema.Proofs.Schema.Faults
import HyperSchema.Proofs.Json.Distinct
import HyperSchema.Proofs.Endpoint.Faults
import HyperSchema.Proofs.Schema.Mentions
import HyperSchema.Proofs.Schema.Dangling
import HyperSchema.Proofs.Declaration.RuleTable
import HyperSchema.Proofs.Declaration.Literals
import HyperSchema.Proofs.Declaration.Numbers
import HyperSchema.Proofs.Declaration.NewNames
import HyperSchema.Proofs.Naming
import HyperSchema.Proofs.Endpoint.MethodNames
import HyperSchema.Proofs.Declaration.Containment
import HyperSchema.Proofs.Schema.Copies
import HyperSchema.Proofs.Endpoint.Ownership
import HyperSchema.Proofs.Files.Standing
import HyperSchema.Proofs.Files.Folder
import HyperSchema.Proofs.Command.Generation
import HyperSchema.Proofs.Schema.Nesting
import HyperSchema.Proofs.Repetition
import HyperSchema.Proofs.Schema.Objects
import HyperSchema.Proofs.Endpoint.Records
import HyperSchema.Proofs.Schema.FlatContents
import HyperSchema.Proofs.Declaration.Parts
import HyperSchema.Proofs.Declaration.References
import HyperSchema.Proofs.Declaration.Responses
import HyperSchema.Proofs.Declaration.Relationships
import HyperSchema.Proofs.Declaration.Requests
import HyperSchema.Proofs.Declaration.Attributes
import HyperSchema.Proofs.Schema.Shadowing
import HyperSchema.Proofs.Schema.Hops
import HyperSchema.Proofs.Json.Replacement
import HyperSchema.Proofs.Schema.Changes
import HyperSchema.Proofs.Schema.Rearrangement
import HyperSchema.Proofs.Endpoint.BranchOrder
import HyperSchema.Proofs.Endpoint.PublicLinks
import HyperSchema.Proofs.Endpoint.Placeholders
import HyperSchema.Proofs.Endpoint.Rendering
import HyperSchema.Proofs.Declaration.Attachment
import HyperSchema.Proofs.Declaration.Stretches
import HyperSchema.Proofs.Declaration.Columns
import HyperSchema.Proofs.Declaration.Padding
import HyperSchema.Proofs.Words
import HyperSchema.Proofs.Declaration.TokenPlaces
import HyperSchema.Proofs.Declaration.Head
import HyperSchema.Proofs.Declaration.Following
import HyperSchema.Proofs.Declaration.Mirrors
import HyperSchema.Proofs.Declaration.Progress
