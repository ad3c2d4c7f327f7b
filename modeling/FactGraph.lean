import FactGraph.Text
import FactGraph.Text.Letters
import FactGraph.Span
import FactGraph.Ident
import FactGraph.Ident.Order
import FactGraph.Fault
import FactGraph.Attempt
import FactGraph.Graph
import FactGraph.Property
import FactGraph.Graph.Naming
import FactGraph.Graph.Attachment
import FactGraph.Token
import FactGraph.Token.Pattern
import FactGraph.Token.Cursor
import FactGraph.Precedence.Action
import FactGraph.Precedence.Symbols
import FactGraph.Precedence.Reader
import FactGraph.Precedence.Progress
import FactGraph.Builder
import FactGraph.Grammar
import FactGraph.Compilation
import FactGraph.Session
import FactGraph.MessagePack
import FactGraph.MessagePack.Value
import FactGraph.Snapshot
import FactGraph.Snapshot.Reading
import FactGraph.Disk
import FactGraph.Files
import FactGraph.CommandLine.Options
import FactGraph.CommandLine.Run
import FactGraph.Main
import FactGraph.Proofs.Attempt
import FactGraph.Proofs.Bindings
import FactGraph.Proofs.Chain
import FactGraph.Proofs.CommandLine
import FactGraph.Proofs.Grammar.Named
import FactGraph.Proofs.Continuation
import FactGraph.Proofs.Corresponding
import FactGraph.Proofs.Crossing
import FactGraph.Proofs.Exchange
import FactGraph.Proofs.Expansion
import FactGraph.Proofs.Grammar.Aside
import FactGraph.Proofs.Grammar.Asking
import FactGraph.Proofs.Grammar.Bracketed
import FactGraph.Proofs.Grammar.Closed
import FactGraph.Proofs.Grammar.Continuing
import FactGraph.Proofs.Grammar.Corresponding
import FactGraph.Proofs.Grammar.Enclosed
import FactGraph.Proofs.Grammar.Expanding
import FactGraph.Proofs.Grammar.Failing
import FactGraph.Proofs.Grammar.Filled
import FactGraph.Proofs.Grammar.Forms
import FactGraph.Proofs.Grammar.Growing
import FactGraph.Proofs.Grammar.Joining
import FactGraph.Proofs.Grammar.Nesting
import FactGraph.Proofs.Grammar.Parting
import FactGraph.Proofs.Grammar.Placed
import FactGraph.Proofs.Grammar.Redefinition
import FactGraph.Proofs.Grammar.Resuming
import FactGraph.Proofs.Grammar.Spelled
import FactGraph.Proofs.Grammar.Splicing
import FactGraph.Proofs.Grammar.Stacked
import FactGraph.Proofs.Grammar.Standing
import FactGraph.Proofs.Grammar.Steady
import FactGraph.Proofs.Grammar.Trail
import FactGraph.Proofs.Grammar.Unplaced
import FactGraph.Proofs.Graph.Attached
import FactGraph.Proofs.Graph.Construction
import FactGraph.Proofs.Graph.Counted
import FactGraph.Proofs.Graph.Distinct
import FactGraph.Proofs.Graph.Embedded
import FactGraph.Proofs.Graph.Emission
import FactGraph.Proofs.Graph.Extension
import FactGraph.Proofs.Graph.Flattening
import FactGraph.Proofs.Graph.Intact
import FactGraph.Proofs.Graph.Labels
import FactGraph.Proofs.Graph.Levels
import FactGraph.Proofs.Graph.Located
import FactGraph.Proofs.Graph.Minting
import FactGraph.Proofs.Graph.Numbered
import FactGraph.Proofs.Graph.Operation
import FactGraph.Proofs.Graph.Ordered
import FactGraph.Proofs.Graph.Places
import FactGraph.Proofs.Graph.Projection
import FactGraph.Proofs.Graph.Raised
import FactGraph.Proofs.Graph.Redrawing
import FactGraph.Proofs.Graph.Refusal
import FactGraph.Proofs.Graph.Spelled
import FactGraph.Proofs.Graph.Stated
import FactGraph.Proofs.Graph.Subjects
import FactGraph.Proofs.Graph.Unlabelled
import FactGraph.Proofs.Graph.Unplaced
import FactGraph.Proofs.Graph.Walk
import FactGraph.Proofs.Ident.Accepted
import FactGraph.Proofs.Ident.Reading
import FactGraph.Proofs.Layout
import FactGraph.Proofs.Limits
import FactGraph.Proofs.Listing
import FactGraph.Proofs.MessagePack.Reading
import FactGraph.Proofs.MessagePack.Value
import FactGraph.Proofs.Notation.Agreement
import FactGraph.Proofs.Notation.Compiled
import FactGraph.Proofs.Notation.Describing
import FactGraph.Proofs.Notation.Evaluation
import FactGraph.Proofs.Notation.Expanded
import FactGraph.Proofs.Notation.Fitting
import FactGraph.Proofs.Notation.Grouped
import FactGraph.Proofs.Notation.Layout
import FactGraph.Proofs.Notation.Names
import FactGraph.Proofs.Notation.Overflowing
import FactGraph.Proofs.Notation.Placing
import FactGraph.Proofs.Notation.Plain
import FactGraph.Proofs.Notation.Reading
import FactGraph.Proofs.Notation.Renaming
import FactGraph.Proofs.Notation.Settled
import FactGraph.Proofs.Notation.Sign
import FactGraph.Proofs.Notation.Spelling
import FactGraph.Proofs.Notation.Tree
import FactGraph.Proofs.Notation.Widening
import FactGraph.Proofs.Precedence.Abreast
import FactGraph.Proofs.Precedence.Contract
import FactGraph.Proofs.Precedence.Climbing
import FactGraph.Proofs.Precedence.Course
import FactGraph.Proofs.Precedence.Depth
import FactGraph.Proofs.Precedence.Failing
import FactGraph.Proofs.Precedence.Guarded
import FactGraph.Proofs.Precedence.Origin
import FactGraph.Proofs.Precedence.Parallel
import FactGraph.Proofs.Precedence.Registration
import FactGraph.Proofs.Precedence.Replacing
import FactGraph.Proofs.Precedence.Running
import FactGraph.Proofs.Precedence.Splitting
import FactGraph.Proofs.Precedence.Stage
import FactGraph.Proofs.Projection
import FactGraph.Proofs.Renaming
import FactGraph.Proofs.Reporting
import FactGraph.Proofs.Seam
import FactGraph.Proofs.Session
import FactGraph.Proofs.Snapshot
import FactGraph.Proofs.Snapshot.Value
import FactGraph.Proofs.Statements
import FactGraph.Proofs.Token.Classes
import FactGraph.Proofs.Token.Continuing
import FactGraph.Proofs.Token.Covering
import FactGraph.Proofs.Token.Location
import FactGraph.Proofs.Token.Longest
import FactGraph.Proofs.Token.Matching
import FactGraph.Proofs.Token.Readable
import FactGraph.Proofs.Token.Scanning
import FactGraph.Proofs.Token.Shapes
import FactGraph.Proofs.Token.Values
import FactGraph.Proofs.Wording
