import PackageGraph.Graph.Draft
import PackageGraph.Json.Printer
import PackageGraph.Json.Reader
import PackageGraph.Dot
import PackageGraph.OutputFormat
import PackageGraph.Manifest
import PackageGraph.Go.Identifier
import PackageGraph.Go.Literal
import PackageGraph.Go.Token
import PackageGraph.Go.Cursor
import PackageGraph.Go.Parse
import PackageGraph.Go.Grammar.Expression
import PackageGraph.Go.Grammar.Declaration
import PackageGraph.Go.Grammar.File
import PackageGraph.Go.Usage
import PackageGraph.Filters
import PackageGraph.Toml.Document
import PackageGraph.Config
import PackageGraph.Ignore.Level
import PackageGraph.Sorted.Sort
import PackageGraph.Sources
import PackageGraph.Analysis
import PackageGraph.CommandLine
import PackageGraph.Main
import PackageGraph.Proofs.Sorted.Gather
import PackageGraph.Proofs.Sorted.Growth
import PackageGraph.Proofs.Stage
import PackageGraph.Proofs.Policy.Rules
import PackageGraph.Proofs.Path.Qualify
import PackageGraph.Proofs.Path.Segments
import PackageGraph.Proofs.Disk.Lookup
import PackageGraph.Proofs.Disk.Distinct
import PackageGraph.Proofs.Policy.Exclusion
import PackageGraph.Proofs.Fact.Collected
import PackageGraph.Proofs.Graph.Dependency
import PackageGraph.Proofs.Graph.Edge
import PackageGraph.Proofs.Graph.Node
import PackageGraph.Proofs.Graph.Quotient
import PackageGraph.Proofs.Graph.Restrict
import PackageGraph.Proofs.Graph.Counted
import PackageGraph.Proofs.Graph.Order
import PackageGraph.Proofs.Graph.Run
import PackageGraph.Proofs.Text.Decimal
import PackageGraph.Proofs.Text.Trim
import PackageGraph.Proofs.Config.Precedence
import PackageGraph.Proofs.Manifest.Directive
import PackageGraph.Proofs.Json.Pretty
import PackageGraph.Proofs.Dot.Lexing
import PackageGraph.Proofs.Dot.Skeleton
import PackageGraph.Proofs.Dot.Recovery
import PackageGraph.Proofs.Records.RoundTrip
import PackageGraph.Proofs.Fact.Usage
import PackageGraph.Proofs.Fact.Merged
import PackageGraph.Proofs.Parser
import PackageGraph.Proofs.Go.Walk
import PackageGraph.Proofs.Go.Imports
import PackageGraph.Proofs.Go.Usage
import PackageGraph.Proofs.Go.PackageName
import PackageGraph.Proofs.Sources.Walk
import PackageGraph.Proofs.Sources.Selected
import PackageGraph.Proofs.Sources.Collected
import PackageGraph.Proofs.CommandLine.Verdict
import PackageGraph.Proofs.Sorted.Renamed
import PackageGraph.Proofs.Path.Renamed
import PackageGraph.Proofs.Graph.Renamed
import PackageGraph.Proofs.Disk.Joined
import PackageGraph.Proofs.Disk.Written
import PackageGraph.Proofs.Disk.Agree
import PackageGraph.Proofs.CommandLine.Spelling
import PackageGraph.Proofs.CommandLine.Rendered
import PackageGraph.Proofs.Mermaid.Identifier
import PackageGraph.Proofs.Mermaid.Statement
import PackageGraph.Proofs.Policy.Refused
import PackageGraph.Proofs.Sources.Unread
import PackageGraph.Proofs.Sources.Agree
import PackageGraph.Proofs.Analysis.Checks
import PackageGraph.Proofs.Graph.Marked
import PackageGraph.Proofs.Fact.References
import PackageGraph.Proofs.Graph.Merged
import PackageGraph.Proofs.Policy.Grouping
import PackageGraph.Proofs.Graph.Census
import PackageGraph.Proofs.Path.Normal
import PackageGraph.Proofs.Dot.Label
import PackageGraph.Proofs.Mermaid.Distinct
import PackageGraph.Proofs.Mermaid.Links
import PackageGraph.Proofs.Policy.Antichain
import PackageGraph.Proofs.Policy.Identity
import PackageGraph.Proofs.Policy.Expansion
import PackageGraph.Proofs.Records.Consistent
import PackageGraph.Proofs.Fact.Union
import PackageGraph.Proofs.Sources.Apart
import PackageGraph.Proofs.Records.Spelled
import PackageGraph.Proofs.Path.Canonical
import PackageGraph.Proofs.Path.Nesting
import PackageGraph.Proofs.Go.Address
import PackageGraph.Proofs.Go.Tour
