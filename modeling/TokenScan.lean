import TokenScan.Cursor.Session
import TokenScan.Main
import TokenScan.Session
import TokenScan.Proofs.TextCuts
import TokenScan.Proofs.LeadingLexeme
import TokenScan.Proofs.ScanStep
import TokenScan.Proofs.ScanRun
import TokenScan.Proofs.Drains
import TokenScan.Proofs.DecimalGrammar
import TokenScan.Proofs.WordOrder
import TokenScan.Proofs.WordKind
import TokenScan.Proofs.Lookahead
import TokenScan.Proofs.PartialScan
import TokenScan.Proofs.Locality
import TokenScan.Proofs.Separators
import TokenScan.Proofs.NearestNumber
import TokenScan.Proofs.PlainSpelling
import TokenScan.Proofs.Spelling
import TokenScan.Proofs.FaultPlace
import TokenScan.Proofs.MixedSteps
import TokenScan.Proofs.GenuineFaults
import TokenScan.Proofs.Transcript
import TokenScan.Proofs.Progress
import TokenScan.Proofs.CursorOffsets
import TokenScan.Proofs.ByteSearch
import TokenScan.Proofs.Relayout
import TokenScan.Proofs.NumberSpelling
import TokenScan.Proofs.ListingLines
import TokenScan.Proofs.LexCheck
import TokenScan.Proofs.LineColumns
import TokenScan.Proofs.LineStarts
import TokenScan.Proofs.LineTexts
import TokenScan.Proofs.ReportShape
import TokenScan.Proofs.Rounding
import TokenScan.Proofs.LiteralBytes
import TokenScan.Proofs.NumberReading
import TokenScan.Proofs.ColorStripping
import TokenScan.Proofs.ArgumentOrder
import TokenScan.Proofs.LogBlock
