import Trendline.Analysis
import Trendline.Ascending
import Trendline.Bar
import Trendline.Batch
import Trendline.Calendar
import Trendline.Cluster
import Trendline.Collection
import Trendline.CommandLine
import Trendline.Decimal.Binary
import Trendline.Decimal.Layout
import Trendline.Decimal.Numeral
import Trendline.Decimal.Shortest
import Trendline.Demo
import Trendline.Document.Overlay
import Trendline.Document.Params
import Trendline.Document.Series
import Trendline.Document.Store
import Trendline.Engine
import Trendline.Error
import Trendline.Extremes
import Trendline.Failure
import Trendline.Files.Basic
import Trendline.Files.Tree
import Trendline.Gradient
import Trendline.Interval
import Trendline.Json.Basic
import Trendline.Json.Decode
import Trendline.Json.Lexer
import Trendline.Json.Printer
import Trendline.Json.Reader
import Trendline.Json.Value
import Trendline.Line
import Trendline.Notice
import Trendline.Overlay
import Trendline.Params
import Trendline.Path
import Trendline.Pivot
import Trendline.Program
import Trendline.Ranking
import Trendline.Scalar
import Trendline.Series
import Trendline.Text.Literal
import Trendline.Text.Plain
import Trendline.Text.Shown
import Trendline.Text.Source
import Trendline.Touch
import Trendline.Trend
import Trendline.Word
import Trendline.Main
import Trendline.Proofs.Batch
import Trendline.Proofs.Engine.Calls
import Trendline.Proofs.Engine.Findings
import Trendline.Proofs.Engine.Interleaving
import Trendline.Proofs.Engine.Outlook
import Trendline.Proofs.Engine.Safety
import Trendline.Proofs.Engine.Slots
import Trendline.Proofs.Engine.Waiting
import Trendline.Proofs.Traversal
import Trendline.Proofs.Double.Order
import Trendline.Proofs.Analysis.Extremes
import Trendline.Proofs.Analysis.Swings
import Trendline.Proofs.Analysis.Lines
import Trendline.Proofs.Analysis.Clusters
import Trendline.Proofs.Analysis.Overlays
import Trendline.Proofs.Analysis.Nesting
import Trendline.Proofs.Analysis.Selection
import Trendline.Proofs.Checked.Lines
import Trendline.Proofs.Checked.Analysis
import Trendline.Proofs.Retiming.Analysis
import Trendline.Proofs.Double.Sign
import Trendline.Proofs.Scalar.Rational
import Trendline.Proofs.Mirror.Lines
import Trendline.Proofs.Mirror.Analysis
import Trendline.Proofs.Double.Spread
import Trendline.Proofs.Analysis.Counts
import Trendline.Proofs.Analysis.Anchors
import Trendline.Proofs.Analysis.Joining
import Trendline.Proofs.Document.Saving
import Trendline.Proofs.Document.Loading
import Trendline.Proofs.Document.Versions
import Trendline.Proofs.Analysis.Windows
import Trendline.Proofs.Clustering.FirstFit
import Trendline.Proofs.Clustering.Placing
import Trendline.Proofs.Clustering.Passes
import Trendline.Proofs.Clustering.Reordering
import Trendline.Proofs.Analysis.Appending
import Trendline.Proofs.Analysis.Thinning
import Trendline.Proofs.Analysis.Sparsity
import Trendline.Proofs.Analysis.Tolerance
import Trendline.Proofs.Analysis.Measuring
import Trendline.Proofs.Double.TotalOrder
import Trendline.Proofs.Analysis.Ranking
import Trendline.Proofs.Trend.LeastSquares
import Trendline.Proofs.Trend.Determination
import Trendline.Proofs.Double.Coincidence
import Trendline.Proofs.Analysis.Evidence
import Trendline.Proofs.Analysis.Bounds
import Trendline.Proofs.Clustering.Separation
import Trendline.Proofs.Engine.Queue
import Trendline.Proofs.Analysis.Lookbacks
import Trendline.Proofs.Columns
import Trendline.Proofs.Analysis.Rows
import Trendline.Proofs.Faults
import Trendline.Proofs.Gaps
import Trendline.Proofs.Json.Defaults
import Trendline.Proofs.Document.Params
import Trendline.Proofs.Double.Halfway
import Trendline.Proofs.Decimal.Shortest
import Trendline.Proofs.Decimal.Magnitude
import Trendline.Proofs.Decimal.Written
import Trendline.Proofs.Json.Scaling
import Trendline.Proofs.Json.Rereading
import Trendline.Proofs.Document.Rereading
import Trendline.Proofs.Analysis.Scale
