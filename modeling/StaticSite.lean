import StaticSite.Main
import StaticSite.Json.Parser
import StaticSite.Proofs.Decimal.Whole
import StaticSite.Proofs.Json.Fields
import StaticSite.Proofs.Json.Printing
import StaticSite.Proofs.Text.Trimming
import StaticSite.Proofs.Text.Utf8
import StaticSite.Proofs.Template.Cut
import StaticSite.Proofs.Template.Phrase
import StaticSite.Proofs.Template.Statement
import StaticSite.Proofs.Template.Lexing
import StaticSite.Proofs.Template.Printing
import StaticSite.Proofs.Template.Compiling
import StaticSite.Proofs.Template.Literal
import StaticSite.Proofs.Page.FrontMatter
import StaticSite.Proofs.Page.Header
import StaticSite.Proofs.Page.Printing
import StaticSite.Proofs.Template.Script
import StaticSite.Proofs.Template.Course
import StaticSite.Proofs.Template.Sink
import StaticSite.Proofs.Text.Markup
import StaticSite.Proofs.Template.Trace
import StaticSite.Proofs.Template.Provenance
import StaticSite.Proofs.FileSystem.Reading
import StaticSite.Proofs.FileSystem.Spelling
import StaticSite.Proofs.FileSystem.Editing
import StaticSite.Proofs.FileSystem.Writing
import StaticSite.Proofs.Template.Freshness
import StaticSite.Proofs.Site.Fallback
import StaticSite.Proofs.Template.Scoping
import StaticSite.Proofs.Template.Recognition
import StaticSite.Proofs.Template.Acceptance
import StaticSite.Proofs.Template.Wording
import StaticSite.Proofs.Template.Spans
import StaticSite.Proofs.Path.Naming
import StaticSite.Proofs.Page.Place
import StaticSite.Proofs.FileSystem.Straight
import StaticSite.Proofs.FileSystem.Footprint
import StaticSite.Proofs.FileSystem.Copying
import StaticSite.Proofs.Site.Scanning
import StaticSite.Proofs.Site.Building
import StaticSite.Proofs.Site.Stages
import StaticSite.Proofs.Site.Rebuild
import StaticSite.Proofs.Template.Likeness
import StaticSite.Proofs.Template.Layers
import StaticSite.Proofs.Text.Location
import StaticSite.Proofs.Template.Positions
import StaticSite.Proofs.Template.Origins
import StaticSite.Proofs.Template.Diagnostics
import StaticSite.Proofs.Path.Absolute
import StaticSite.Proofs.FileSystem.Gaps
import StaticSite.Proofs.FileSystem.Routes
import StaticSite.Proofs.FileSystem.Putting
import StaticSite.Proofs.FileSystem.Growth
import StaticSite.Proofs.Template.Answers
import StaticSite.Proofs.Site.Effects
import StaticSite.Proofs.Site.Order
import StaticSite.Proofs.FileSystem.Confining
import StaticSite.Proofs.Site.Sources
import StaticSite.Proofs.Site.Confinement
import StaticSite.Proofs.FileSystem.Linking
import StaticSite.Proofs.FileSystem.Distinct
import StaticSite.Proofs.Site.Forecast
import StaticSite.Proofs.Site.Rescanning
import StaticSite.Proofs.Site.Unchanged
import StaticSite.Proofs.FileSystem.Varying
import StaticSite.Proofs.Path.Relative
import StaticSite.Proofs.Site.Hierarchy
import StaticSite.Proofs.Site.Home
import StaticSite.Proofs.Site.Accounting
import StaticSite.Proofs.Template.Interleaving
import StaticSite.Proofs.Site.Comparison
import StaticSite.Proofs.Site.Influence
import StaticSite.Proofs.Site.Codeless
import StaticSite.Proofs.Decimal.Sign
import StaticSite.Proofs.Template.Denotation
import StaticSite.Proofs.Template.Transparency
import StaticSite.Proofs.Toml.Keys
import StaticSite.Proofs.CommandLine.Layering
import StaticSite.Proofs.CommandLine.Configuration
import StaticSite.Proofs.Page.Lines
import StaticSite.Proofs.Decimal.Rounding
import StaticSite.Proofs.Page.Integers
import StaticSite.Proofs.Json.Grammar
import StaticSite.Proofs.Template.Inclusion
import StaticSite.Proofs.Template.Advance
import StaticSite.Proofs.Template.Extent
import StaticSite.Proofs.Template.Separation
import StaticSite.Proofs.Site.Staleness
import StaticSite.Proofs.Template.Quotation
import StaticSite.Proofs.Text.Decoding
import StaticSite.Proofs.Site.Bearings
import StaticSite.Proofs.Template.Names
import StaticSite.Proofs.Template.Outliving
import StaticSite.Proofs.Template.Nesting
import StaticSite.Proofs.Path.Parents
import StaticSite.Proofs.FileSystem.Holding
import StaticSite.Proofs.FileSystem.WholeWrites
import StaticSite.Proofs.FileSystem.Replacing
import StaticSite.Proofs.Path.Resolving
import StaticSite.Proofs.Template.Indexing
import StaticSite.Proofs.Template.Joining
import StaticSite.Proofs.Markdown.Nesting
import StaticSite.Proofs.Site.Unbuilt
