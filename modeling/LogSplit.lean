import LogSplit.CommandLine
import LogSplit.CommandLine.Help
import LogSplit.CommandLine.Word
import LogSplit.Environment
import LogSplit.Error
import LogSplit.File.Error
import LogSplit.File.Path
import LogSplit.File.Storage
import LogSplit.File.Tree
import LogSplit.Journal
import LogSplit.Journal.Filter
import LogSplit.Main
import LogSplit.Number.Binary64
import LogSplit.Number.Decimal
import LogSplit.Number.Numeral
import LogSplit.Number.Shortest
import LogSplit.Output.Directory
import LogSplit.Output.Replace
import LogSplit.Output.SegmentFile
import LogSplit.Predicate.Clause
import LogSplit.Predicate.Compiled
import LogSplit.Predicate.Condition
import LogSplit.Predicate.Operator
import LogSplit.Program
import LogSplit.Report.Json
import LogSplit.Report.Text
import LogSplit.Segment
import LogSplit.Settings
import LogSplit.Settings.File
import LogSplit.Settings.Load
import LogSplit.Split
import LogSplit.Stem
import LogSplit.Table
import LogSplit.Text.Alphanumeric
import LogSplit.Text.Blank
import LogSplit.Text.Case
import LogSplit.Text.Invisible
import LogSplit.Text.Paint
import LogSplit.Text.Pattern
import LogSplit.Text.Quoted
import LogSplit.Text.Styled
import LogSplit.Text.Terminal
import LogSplit.Text.Utf8
import LogSplit.Tsv.Reader
import LogSplit.Tsv.Record
import LogSplit.Tsv.Writer
import LogSplit.Yaml.Block
import LogSplit.Yaml.Mapping
import LogSplit.Yaml.Place
import LogSplit.Yaml.Scalar
import LogSplit.Yaml.Tag
import LogSplit.Yaml.Token
import LogSplit.Proofs.Segment.MaximalRuns
import LogSplit.Proofs.Predicate.ClauseRegex
import LogSplit.Proofs.Text.Encoding
import LogSplit.Proofs.Predicate.Literal
import LogSplit.Proofs.Predicate.FindAll
import LogSplit.Proofs.Tsv.Layout
import LogSplit.Proofs.Tsv.RoundTrip
import LogSplit.Proofs.File.Walk
import LogSplit.Proofs.File.Operations
import LogSplit.Proofs.File.PathNames
import LogSplit.Proofs.File.Host
import LogSplit.Proofs.Output.SegmentFiles
import LogSplit.Proofs.File.Confined
import LogSplit.Proofs.Output.Replacement
import LogSplit.Proofs.File.WellFormed
import LogSplit.Proofs.Output.Preparation
import LogSplit.Proofs.Tsv.RecordCount
import LogSplit.Proofs.Split.InputFile
import LogSplit.Proofs.Segment.FinishedRuns
import LogSplit.Proofs.Segment.HandedOver
import LogSplit.Proofs.Segment.FailingScan
import LogSplit.Proofs.Split.GettingReady
import LogSplit.Proofs.File.Directory
import LogSplit.Proofs.Output.Directory
import LogSplit.Proofs.Split.Phases
import LogSplit.Proofs.Split.InputFaults
import LogSplit.Proofs.File.Plain
import LogSplit.Proofs.Output.SegmentNames
import LogSplit.Proofs.Output.PlacedFiles
import LogSplit.Proofs.Output.PlainDirectory
import LogSplit.Proofs.Split.CompletedSplit
import LogSplit.Proofs.Split.InterruptedSplit
import LogSplit.Proofs.Tsv.Rewriting
import LogSplit.Proofs.File.TemporaryName
import LogSplit.Proofs.File.AppendedName
import LogSplit.Proofs.Output.ReplacedTable
import LogSplit.Proofs.Report.WholeDocument
import LogSplit.Proofs.Program.Shown
import LogSplit.Proofs.Output.AcceptedSegments
import LogSplit.Proofs.Split.SecondSplit
import LogSplit.Proofs.Output.ListingOrder
import LogSplit.Proofs.Number.Numeral
import LogSplit.Proofs.Number.Rounding
import LogSplit.Proofs.Number.ShortestText
import LogSplit.Proofs.Predicate.ClauseParts
import LogSplit.Proofs.Predicate.ForeignText
import LogSplit.Proofs.Predicate.WrittenClauses
import LogSplit.Proofs.Predicate.PrintedConditions
import LogSplit.Proofs.Predicate.ComputedThresholds
import LogSplit.Proofs.Predicate.Compiled
import LogSplit.Proofs.Predicate.Interpretation
import LogSplit.Proofs.Segment.FewerConditions
import LogSplit.Proofs.Segment.AgreeingScans
import LogSplit.Proofs.Segment.ReorderedConditions
import LogSplit.Proofs.Segment.ComparedCells
import LogSplit.Proofs.Segment.JoinedTables
import LogSplit.Proofs.Segment.SegmentAsTable
import LogSplit.Proofs.Tsv.RecordLines
import LogSplit.Proofs.Tsv.TextStarts
import LogSplit.Proofs.Split.ReportedLines
import LogSplit.Proofs.Tsv.RepeatedNames
import LogSplit.Proofs.Tsv.WriterCalls
import LogSplit.Proofs.Tsv.TextLogs
import LogSplit.Proofs.Tsv.OpenQuote
import LogSplit.Proofs.Number.RoundingOrder
import LogSplit.Proofs.Number.WrittenDecimals
import LogSplit.Proofs.Predicate.DecimalComparisons
import LogSplit.Proofs.Predicate.WholeWords
import LogSplit.Proofs.Predicate.LongestNumber
import LogSplit.Proofs.Text.Slices
import LogSplit.Proofs.Predicate.Offsets
import LogSplit.Proofs.Split.AcceptedStems
import LogSplit.Proofs.Report.StandardJson
import LogSplit.Proofs.Report.DecodedReport
import LogSplit.Proofs.File.JoinedNames
import LogSplit.Proofs.Output.RefusedSegments
import LogSplit.Proofs.Split.LongNames
import LogSplit.Proofs.Number.DenotedValue
import LogSplit.Proofs.Predicate.ExactComparisons
