import EbmlReport.Buffered
import EbmlReport.Bytes
import EbmlReport.Calendar
import EbmlReport.CommandLine.Arguments
import EbmlReport.CommandLine.Outcome
import EbmlReport.Contents
import EbmlReport.Defect
import EbmlReport.Device
import EbmlReport.Failure
import EbmlReport.Forest
import EbmlReport.Forest.Dump
import EbmlReport.Heading
import EbmlReport.Main
import EbmlReport.Matroska.Attachment
import EbmlReport.Matroska.BlockHead
import EbmlReport.Matroska.Catalogue
import EbmlReport.Matroska.Chapter
import EbmlReport.Matroska.Cluster
import EbmlReport.Matroska.Code
import EbmlReport.Matroska.Header
import EbmlReport.Matroska.Index
import EbmlReport.Matroska.Info
import EbmlReport.Matroska.Lacing
import EbmlReport.Matroska.Report
import EbmlReport.Matroska.Segment
import EbmlReport.Matroska.Specification
import EbmlReport.Matroska.Summary
import EbmlReport.Matroska.Tagging
import EbmlReport.Matroska.Track
import EbmlReport.Number.Binary64
import EbmlReport.Number.FixedPlaces
import EbmlReport.Number.Shortest
import EbmlReport.Outline
import EbmlReport.Proofs.BlockBytes
import EbmlReport.Proofs.Boundary
import EbmlReport.Proofs.CalendarDays
import EbmlReport.Proofs.Cancelling
import EbmlReport.Proofs.Concatenation
import EbmlReport.Proofs.CorruptNeighbours
import EbmlReport.Proofs.Damage
import EbmlReport.Proofs.DateTexts
import EbmlReport.Proofs.DepthLimit
import EbmlReport.Proofs.Drawing
import EbmlReport.Proofs.ElementTree
import EbmlReport.Proofs.EmptyGroups
import EbmlReport.Proofs.Enriching
import EbmlReport.Proofs.Extraction
import EbmlReport.Proofs.Failing
import EbmlReport.Proofs.ForwardPass
import EbmlReport.Proofs.Halting
import EbmlReport.Proofs.HeadingCodec
import EbmlReport.Proofs.Headings
import EbmlReport.Proofs.LaceSums
import EbmlReport.Proofs.Lacing
import EbmlReport.Proofs.Locality
import EbmlReport.Proofs.Payloads
import EbmlReport.Proofs.Places
import EbmlReport.Proofs.Preview
import EbmlReport.Proofs.Pruning
import EbmlReport.Proofs.QuickCatalogue
import EbmlReport.Proofs.Reading
import EbmlReport.Proofs.Rearranging
import EbmlReport.Proofs.Records
import EbmlReport.Proofs.ReportLines
import EbmlReport.Proofs.Reuse
import EbmlReport.Proofs.SingleLines
import EbmlReport.Proofs.Stream
import EbmlReport.Proofs.Strictness
import EbmlReport.Proofs.Tiling
import EbmlReport.Proofs.Transcript
import EbmlReport.Proofs.Translation
import EbmlReport.Proofs.Truncation
import EbmlReport.Proofs.Window
import EbmlReport.Proofs.WordArithmetic
import EbmlReport.Proofs.Writing
import EbmlReport.Scan
import EbmlReport.Scan.Inquiry
import EbmlReport.Scan.Settings
import EbmlReport.Scan.Siblings
import EbmlReport.Text.Extender
import EbmlReport.Text.Hex
import EbmlReport.Text.Quoted
import EbmlReport.Text.Ranges
import EbmlReport.Text.Terminal
import EbmlReport.Text.Unprintable
import EbmlReport.Value
import EbmlReport.Varint
import EbmlReport.Vocabulary
