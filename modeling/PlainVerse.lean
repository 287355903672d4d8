import PlainVerse.AliasTable
import PlainVerse.Binary64
import PlainVerse.Binary64.Shortest
import PlainVerse.Command.Clause
import PlainVerse.Command.Compile
import PlainVerse.CommandLine.Arguments
import PlainVerse.CommandLine.Run
import PlainVerse.Digest
import PlainVerse.Gene.Basic
import PlainVerse.Gene.Document
import PlainVerse.Gene.Summary
import PlainVerse.Json
import PlainVerse.Json.Printer
import PlainVerse.Json.Reader
import PlainVerse.Json.Scalar
import PlainVerse.Json.Token
import PlainVerse.Json.Written
import PlainVerse.Main
import PlainVerse.OrderedMap
import PlainVerse.Plan
import PlainVerse.Plan.Json
import PlainVerse.Poem.Directive
import PlainVerse.Poem.Json
import PlainVerse.Poem.Line
import PlainVerse.Poem.Parse
import PlainVerse.Poem.Phrase
import PlainVerse.Poem.Score
import PlainVerse.Poem.Statement
import PlainVerse.Proofs.Command.Names
import PlainVerse.Proofs.Command.Passes
import PlainVerse.Proofs.Command.References
import PlainVerse.Proofs.Gene.Bundling
import PlainVerse.Proofs.Gene.Conservation
import PlainVerse.Proofs.Gene.Cursor
import PlainVerse.Proofs.Gene.Lowering
import PlainVerse.Proofs.Plan.Dangling
import PlainVerse.Proofs.Poem.LineAccounting
import PlainVerse.Proofs.Poem.Reading
import PlainVerse.Proofs.Poem.TriggerBody
import PlainVerse.Proofs.Text.Normal
import PlainVerse.Proofs.Text.Search
import PlainVerse.Step
import PlainVerse.Step.Json
import PlainVerse.Step.PlainLine
import PlainVerse.Text.Blank
import PlainVerse.Text.CaseProperties
import PlainVerse.Text.CodePoints
import PlainVerse.Text.Decimal
import PlainVerse.Text.DecimalDigit
import PlainVerse.Text.Fold
import PlainVerse.Text.LowerCase
import PlainVerse.Text.Scan
import PlainVerse.Text.WordChar
import PlainVerse.ToolPath
import PlainVerse.Proofs.Command.Spelling
import PlainVerse.Proofs.Command.Finding
import PlainVerse.Proofs.Command.Interleaving
import PlainVerse.Proofs.Json.Scalars
import PlainVerse.Proofs.Json.Lexing
import PlainVerse.Proofs.Json.Parsing
import PlainVerse.Proofs.Json.FreeValues
import PlainVerse.Proofs.Json.Records
import PlainVerse.Proofs.Plan.RoundTrip
import PlainVerse.Proofs.Plan.Resolution
import PlainVerse.Proofs.Step.RoundTrip
import PlainVerse.Proofs.Command.Outcome
import PlainVerse.Proofs.Poem.RoundTrip
import PlainVerse.Proofs.Gene.Isolation
import PlainVerse.Proofs.Gene.Estimate
import PlainVerse.Proofs.Gene.Composition
import PlainVerse.Proofs.Poem.Relabeling
import PlainVerse.Proofs.Poem.Joining
import PlainVerse.Proofs.Text.Trim
import PlainVerse.Proofs.Poem.Layout
import PlainVerse.Proofs.Poem.Spelling
import PlainVerse.Proofs.Poem.Recognition
import PlainVerse.Proofs.Poem.Profile
import PlainVerse.Proofs.Poem.ReadBack
import PlainVerse.Proofs.AliasTable.Fresh
import PlainVerse.Proofs.AliasTable.Runs
import PlainVerse.Proofs.Step.Grammar
import PlainVerse.Proofs.Command.Failing
import PlainVerse.Proofs.Gene.Payload
import PlainVerse.Proofs.Command.Normalizing
import PlainVerse.Proofs.Command.Occurrences
import PlainVerse.Proofs.Command.Leftmost
import PlainVerse.Proofs.Command.OutputNames
import PlainVerse.Proofs.CommandLine.Agreement
import PlainVerse.Proofs.Poem.Scoring
import PlainVerse.Proofs.Gene.Capping
import PlainVerse.Proofs.Poem.Directives
import PlainVerse.Proofs.Poem.WellFormed
import PlainVerse.Proofs.Command.Quoting
import PlainVerse.Proofs.Command.Seeds
import PlainVerse.Proofs.Json.Values
import PlainVerse.Proofs.Poem.MemberOrder
import PlainVerse.Proofs.AliasTable.LeastFree
import PlainVerse.Proofs.Text.Splitting
import PlainVerse.Proofs.ToolPath.Dotted
