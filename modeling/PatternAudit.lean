import PatternAudit.Main
import PatternAudit.Proofs.Scoring
import PatternAudit.Proofs.ReaderRuns
import PatternAudit.Proofs.Limit
import PatternAudit.Proofs.Truncation
import PatternAudit.Proofs.Grammar
import PatternAudit.Proofs.StringScan
import PatternAudit.Proofs.NumberScan
import PatternAudit.Proofs.SkipScan
import PatternAudit.Proofs.ReaderTokens
import PatternAudit.Proofs.Rendering
import PatternAudit.Proofs.WrittenText
import PatternAudit.Proofs.RoundTrip
import PatternAudit.Proofs.Growth
import PatternAudit.Proofs.Rescoring
import PatternAudit.Proofs.Balance
import PatternAudit.Proofs.CommandOutcome
import PatternAudit.Proofs.DelimitedRecords
import PatternAudit.Proofs.GzipMember
import PatternAudit.Proofs.Independence
import PatternAudit.Proofs.EarlyStop
import PatternAudit.Proofs.Ranking
import PatternAudit.Proofs.StartOrder
import PatternAudit.Proofs.FixedPlaces
import PatternAudit.Proofs.DelimitedRow
import PatternAudit.Proofs.PathComponents
import PatternAudit.Proofs.MatchPath
import PatternAudit.Proofs.TableAlignment
import PatternAudit.Proofs.ListedLines
import PatternAudit.Proofs.IndexedPositions
