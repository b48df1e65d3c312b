import CheckerTrials.Catalogue.Benchmarks
import CheckerTrials.Catalogue.Descriptor
import CheckerTrials.Catalogue.Exchange
import CheckerTrials.Catalogue.Families
import CheckerTrials.Catalogue.Heuristic
import CheckerTrials.CommandLine.Perform
import CheckerTrials.CommandLine.Task
import CheckerTrials.CommandLine.Usage
import CheckerTrials.Config
import CheckerTrials.Decimal.Binary64
import CheckerTrials.Decimal.Natural
import CheckerTrials.Decimal.Numeral
import CheckerTrials.Decimal.Shortest
import CheckerTrials.Decimal.Written
import CheckerTrials.Files.Disk
import CheckerTrials.Files.Path
import CheckerTrials.Files.Work
import CheckerTrials.Json.Decode
import CheckerTrials.Json.Document
import CheckerTrials.Json.Library
import CheckerTrials.Json.Token
import CheckerTrials.Json.Value
import CheckerTrials.Main
import CheckerTrials.Note
import CheckerTrials.Ordered.Map
import CheckerTrials.Ordered.Sort
import CheckerTrials.Plan.Flags
import CheckerTrials.Plan.Job
import CheckerTrials.Plan.Launcher
import CheckerTrials.Plan.Partition
import CheckerTrials.Plan.Run
import CheckerTrials.Reachability.Collection
import CheckerTrials.Reachability.Comparison
import CheckerTrials.Reachability.Document
import CheckerTrials.Reachability.FamilyTable
import CheckerTrials.Reachability.Kind
import CheckerTrials.Reachability.MethodTable
import CheckerTrials.Reachability.Nontrivial
import CheckerTrials.Reachability.Outcome
import CheckerTrials.Report.Comparison
import CheckerTrials.Report.Group
import CheckerTrials.Report.Series
import CheckerTrials.Report.Table
import CheckerTrials.Shell.Arithmetic
import CheckerTrials.Shell.Builtin
import CheckerTrials.Shell.Condition
import CheckerTrials.Shell.Execution
import CheckerTrials.Shell.Expansion
import CheckerTrials.Shell.Format
import CheckerTrials.Shell.Grammar
import CheckerTrials.Shell.Pattern
import CheckerTrials.Shell.Printing
import CheckerTrials.Shell.Programs
import CheckerTrials.Shell.Raw
import CheckerTrials.Shell.Script
import CheckerTrials.Shell.Session
import CheckerTrials.Shell.Source
import CheckerTrials.Shell.Token
import CheckerTrials.Shell.Word
import CheckerTrials.Summary.Basic
import CheckerTrials.Summary.Group
import CheckerTrials.Summary.Order
import CheckerTrials.Text.Blank
import CheckerTrials.Text.Split
import CheckerTrials.Text.Utf8
import CheckerTrials.Trial.Artifact
import CheckerTrials.Trial.Basic
import CheckerTrials.Trial.Exchange
import CheckerTrials.Trial.Folder
import CheckerTrials.Trial.Invocation
import CheckerTrials.Trial.ModelPath
import CheckerTrials.Trial.Quantity
import CheckerTrials.Trial.Status
import CheckerTrials.Trial.TextResult
import CheckerTrials.Proofs.Ordered.Keys
import CheckerTrials.Proofs.Ordered.Stability
import CheckerTrials.Proofs.Success
import CheckerTrials.Proofs.Trial.WellFormed
import CheckerTrials.Proofs.Summary.Groups
import CheckerTrials.Proofs.Summary.Accounts
import CheckerTrials.Proofs.Report.Membership
import CheckerTrials.Proofs.Files.Edit
import CheckerTrials.Proofs.Files.Folders
import CheckerTrials.Proofs.Files.Absolute
import CheckerTrials.Proofs.Plan.Footprint
import CheckerTrials.Proofs.Plan.Likeness
import CheckerTrials.Proofs.Plan.Crew
import CheckerTrials.Proofs.Plan.Schedule
import CheckerTrials.Proofs.Decimal.Digits
import CheckerTrials.Proofs.Plan.Places
import CheckerTrials.Proofs.Plan.Splitting
import CheckerTrials.Proofs.Plan.Numbering
import CheckerTrials.Proofs.Plan.Perform
import CheckerTrials.Proofs.Plan.Interleaving
import CheckerTrials.Proofs.Files.Listing
import CheckerTrials.Proofs.Files.Beside
import CheckerTrials.Proofs.Plan.Recording
import CheckerTrials.Proofs.Text.Words
import CheckerTrials.Proofs.Trial.Numbers
import CheckerTrials.Proofs.Trial.Sections
import CheckerTrials.Proofs.Trial.LastSection
import CheckerTrials.Proofs.Trial.CommandLine
import CheckerTrials.Proofs.Trial.Configuration
import CheckerTrials.Proofs.Trial.Reading
import CheckerTrials.Proofs.Plan.Recovery
import CheckerTrials.Proofs.Plan.Rerun
import CheckerTrials.Proofs.Reachability.Families
import CheckerTrials.Proofs.Reachability.Counts
import CheckerTrials.Proofs.Reachability.Rescues
import CheckerTrials.Proofs.Reachability.Agreement
import CheckerTrials.Proofs.Files.Rewriting
import CheckerTrials.Proofs.Reachability.Collecting
import CheckerTrials.Proofs.Reachability.Difference
import CheckerTrials.Proofs.Reachability.Tree
import CheckerTrials.Proofs.Reachability.Isolation
import CheckerTrials.Proofs.Decimal.Rounding
import CheckerTrials.Proofs.Decimal.Bits
import CheckerTrials.Proofs.Decimal.Nearest
import CheckerTrials.Proofs.Decimal.Layout
import CheckerTrials.Proofs.Json.Tokens
import CheckerTrials.Proofs.Json.Numbers
import CheckerTrials.Proofs.Json.Reading
import CheckerTrials.Proofs.Json.Rounding
import CheckerTrials.Proofs.Json.Decoding
import CheckerTrials.Proofs.Reachability.Storage
import CheckerTrials.Proofs.Decimal.Addition
import CheckerTrials.Proofs.Summary.Rearranging
import CheckerTrials.Proofs.Summary.Independence
import CheckerTrials.Proofs.Files.Differing
import CheckerTrials.Proofs.Trial.Runs
import CheckerTrials.Proofs.Trial.Damage
import CheckerTrials.Proofs.Trial.ModelNames
import CheckerTrials.Proofs.Files.Filling
import CheckerTrials.Proofs.Report.FileNames
import CheckerTrials.Proofs.Report.Files
import CheckerTrials.Proofs.CommandLine.Configuring
import CheckerTrials.Proofs.CommandLine.Evaluating
import CheckerTrials.Proofs.Report.Confinement
import CheckerTrials.Proofs.Reachability.Vacant
import CheckerTrials.Proofs.Decimal.Order
import CheckerTrials.Proofs.Reachability.Ranking
import CheckerTrials.Proofs.Report.Columns
import CheckerTrials.Proofs.Report.Csv
import CheckerTrials.Proofs.Report.Tabular
import CheckerTrials.Proofs.Reachability.Titles
import CheckerTrials.Proofs.Files.Several
import CheckerTrials.Proofs.Report.SeriesFiles
import CheckerTrials.Proofs.Summary.Leaderboard
import CheckerTrials.Proofs.Text.ByteOrder
import CheckerTrials.Proofs.Summary.Listing
import CheckerTrials.Proofs.Text.Lossy
import CheckerTrials.Proofs.Trial.Endings
import CheckerTrials.Proofs.Reachability.Kinds
import CheckerTrials.Proofs.Reachability.Passes
import CheckerTrials.Proofs.Reachability.SetupLines
import CheckerTrials.Proofs.Reachability.SetupForms
import CheckerTrials.Proofs.Reachability.Filing
import CheckerTrials.Proofs.Decimal.Shifting
import CheckerTrials.Proofs.Decimal.Arithmetic
import CheckerTrials.Proofs.Decimal.Means
import CheckerTrials.Proofs.Reachability.Shares
import CheckerTrials.Proofs.Reachability.Filtering
import CheckerTrials.Proofs.Trial.Grouping
import CheckerTrials.Proofs.Files.Relisting
import CheckerTrials.Proofs.Trial.Iterations
import CheckerTrials.Proofs.Trial.Markers
import CheckerTrials.Proofs.Decimal.Exact
import CheckerTrials.Proofs.Trial.WrittenCounts
import CheckerTrials.Proofs.Trial.ExactQuantities
import CheckerTrials.Proofs.Summary.Scaling
import CheckerTrials.Proofs.Report.Clock
import CheckerTrials.Proofs.Plan.Joining
