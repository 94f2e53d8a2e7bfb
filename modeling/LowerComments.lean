import LowerComments.Arguments.Help
import LowerComments.Arguments.Read
import LowerComments.Arguments.Switch
import LowerComments.Bytes
import LowerComments.Catalog
import LowerComments.Command
import LowerComments.Comment.Line
import LowerComments.Comment.Span
import LowerComments.Comment.Text
import LowerComments.Decimal.Binary
import LowerComments.Decimal.Shortest
import LowerComments.Discovery
import LowerComments.Disk
import LowerComments.Fault
import LowerComments.FileUpdate
import LowerComments.IoFault
import LowerComments.Letter.Cased
import LowerComments.Letter.Ignorable
import LowerComments.Letter.Interval
import LowerComments.Letter.Lower
import LowerComments.Letter.Sigma
import LowerComments.Main
import LowerComments.Path
import LowerComments.Proofs.Arguments.Flags
import LowerComments.Proofs.Arguments.Grammar
import LowerComments.Proofs.Arguments.Scan
import LowerComments.Proofs.Command.Early
import LowerComments.Proofs.Command.Exit
import LowerComments.Proofs.Command.Quiet
import LowerComments.Proofs.Command.Stages
import LowerComments.Proofs.Comment.Characters
import LowerComments.Proofs.Comment.Idempotence
import LowerComments.Proofs.Comment.LineByLine
import LowerComments.Proofs.Comment.LineEnds
import LowerComments.Proofs.Comment.Lines
import LowerComments.Proofs.Comment.Marker
import LowerComments.Proofs.Comment.Span
import LowerComments.Proofs.Comment.Variants
import LowerComments.Proofs.Comment.WholeText
import LowerComments.Proofs.Discovery
import LowerComments.Proofs.Discovery.Listing
import LowerComments.Proofs.Letter.Neighbours
import LowerComments.Proofs.Letter.Settled
import LowerComments.Proofs.Path.Order
import LowerComments.Proofs.Path.Shown
import LowerComments.Proofs.Report.Wording
import LowerComments.Proofs.Report.Writer
import LowerComments.Proofs.Run.Contents
import LowerComments.Proofs.Run.Ending
import LowerComments.Proofs.Run.Limits
import LowerComments.Proofs.Run.Lockstep
import LowerComments.Proofs.Run.Order
import LowerComments.Proofs.Run.Progress
import LowerComments.Proofs.Run.Repetition
import LowerComments.Proofs.Run.Reports
import LowerComments.Proofs.Run.Strategies
import LowerComments.Proofs.Settings.Documents
import LowerComments.Proofs.Settings.Effect
import LowerComments.Proofs.Settings.Fields
import LowerComments.Proofs.Settings.Independence
import LowerComments.Proofs.Settings.Loading
import LowerComments.Proofs.Settings.Preparation
import LowerComments.Proofs.Toml.Drafts
import LowerComments.Proofs.Toml.Names
import LowerComments.Proofs.Tree.Agreement
import LowerComments.Proofs.Tree.Entries
import LowerComments.Proofs.Tree.Growth
import LowerComments.Proofs.Tree.Interruption
import LowerComments.Proofs.Tree.Joined
import LowerComments.Proofs.Tree.Paths
import LowerComments.Proofs.Tree.Replacement
import LowerComments.Proofs.Tree.Sight
import LowerComments.Proofs.Tree.Temporary
import LowerComments.Proofs.Update.Outcome
import LowerComments.Proofs.Update.Tracking
import LowerComments.Proofs.Update.Verdict
import LowerComments.Proofs.Utf8.Boundaries
import LowerComments.Proofs.Utf8.RoundTrip
import LowerComments.Proofs.Utf8.WellFormed
import LowerComments.Report.Lines
import LowerComments.Report.Style
import LowerComments.Report.Writer
import LowerComments.Run
import LowerComments.Settings.Basic
import LowerComments.Settings.Decode
import LowerComments.Settings.Example
import LowerComments.Settings.Fault
import LowerComments.Settings.Load
import LowerComments.Sorting
import LowerComments.SystemError
import LowerComments.Target
import LowerComments.Text.Invisible
import LowerComments.Text.Quoted
import LowerComments.Toml.Document
import LowerComments.Toml.Draft
import LowerComments.Toml.Element
import LowerComments.Toml.Key
import LowerComments.Toml.Moment
import LowerComments.Toml.Number
import LowerComments.Toml.Scan
import LowerComments.Toml.Text
import LowerComments.Toml.Value
import LowerComments.Tree.Basic
import LowerComments.Tree.Build
import LowerComments.Tree.Content
import LowerComments.Tree.Locate
import LowerComments.Tree.Replace
import LowerComments.Tree.View
import LowerComments.Utf8.Decode
import LowerComments.Utf8.Encode
