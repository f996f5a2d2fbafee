import IncludeOrder.Addition
import IncludeOrder.Checker
import IncludeOrder.Command
import IncludeOrder.Command.Arguments
import IncludeOrder.Command.Messages
import IncludeOrder.Command.Similarity
import IncludeOrder.Comment
import IncludeOrder.Console
import IncludeOrder.Directive
import IncludeOrder.Failure
import IncludeOrder.FileTree
import IncludeOrder.Finding
import IncludeOrder.HeaderPath
import IncludeOrder.Json.Basic
import IncludeOrder.Json.Literal
import IncludeOrder.Json.Number
import IncludeOrder.Json.Skip
import IncludeOrder.Json.Texts
import IncludeOrder.Main
import IncludeOrder.Metrics
import IncludeOrder.Path
import IncludeOrder.Proofs.Answers
import IncludeOrder.Proofs.AsciiBytes
import IncludeOrder.Proofs.Bounds
import IncludeOrder.Proofs.ByteOrder
import IncludeOrder.Proofs.Closure
import IncludeOrder.Proofs.CommentLexer
import IncludeOrder.Proofs.CommentText
import IncludeOrder.Proofs.Commuting
import IncludeOrder.Proofs.Counts
import IncludeOrder.Proofs.DependencyOrder
import IncludeOrder.Proofs.DirectiveLines
import IncludeOrder.Proofs.Directives
import IncludeOrder.Proofs.Directories
import IncludeOrder.Proofs.Encoding
import IncludeOrder.Proofs.EndingStyles
import IncludeOrder.Proofs.Failures
import IncludeOrder.Proofs.Findings
import IncludeOrder.Proofs.HeaderTests
import IncludeOrder.Proofs.InertLines
import IncludeOrder.Proofs.Influence
import IncludeOrder.Proofs.LargerRegistry
import IncludeOrder.Proofs.LineEndings
import IncludeOrder.Proofs.LiveLines
import IncludeOrder.Proofs.MachineWords
import IncludeOrder.Proofs.NamesInEffect
import IncludeOrder.Proofs.Outcome
import IncludeOrder.Proofs.Patterns
import IncludeOrder.Proofs.RegistryHistories
import IncludeOrder.Proofs.Renumbering
import IncludeOrder.Proofs.Sessions
import IncludeOrder.Proofs.Sources
import IncludeOrder.Proofs.Tallies
import IncludeOrder.Proofs.TwoGroups
import IncludeOrder.Proofs.Verdict
import IncludeOrder.Proofs.Visits
import IncludeOrder.Proofs.WrittenSettings
import IncludeOrder.Proofs.WrittenTexts
import IncludeOrder.Registry
import IncludeOrder.Scan
import IncludeOrder.ScanOrder
import IncludeOrder.Settings
import IncludeOrder.Settings.Json
import IncludeOrder.Summary
import IncludeOrder.Text.Blank
import IncludeOrder.Text.CodePoint
import IncludeOrder.Text.Line
import IncludeOrder.Text.Search
import IncludeOrder.Text.Terminal
import IncludeOrder.Text.Utf8
import IncludeOrder.Text.Word
import IncludeOrder.Text.WordTable
