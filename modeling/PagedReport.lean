import PagedReport.Main
import PagedReport.Command.Folder
import PagedReport.Proofs.Reconciliation
import PagedReport.Proofs.Scroll
import PagedReport.Proofs.Repagination
import PagedReport.Proofs.PageTop
import PagedReport.Proofs.RepeatedHeaders
import PagedReport.Proofs.ShownGroups
import PagedReport.Proofs.Faults
import PagedReport.Proofs.Decimal.Rounding
import PagedReport.Proofs.Overflow
import PagedReport.Proofs.SinceReset
import PagedReport.Proofs.FilledPages
import PagedReport.Proofs.SectionBoundary
import PagedReport.Proofs.Consistency
import PagedReport.Proofs.Lookups
import PagedReport.Proofs.CheckedReports
import PagedReport.Proofs.Decimal.Reading
import PagedReport.Proofs.Json.Numbers
import PagedReport.Proofs.TallerPages
import PagedReport.Proofs.Noninterference
import PagedReport.Proofs.Paint.TableRows
import PagedReport.Proofs.Decimal.Digits
import PagedReport.Proofs.Json.WrittenNumbers
import PagedReport.Proofs.Json.Drafts
import PagedReport.Proofs.Json.ReadBack
import PagedReport.Proofs.Json.Documents
import PagedReport.Proofs.CellDocuments
import PagedReport.Proofs.PageDocuments
import PagedReport.Proofs.DefinitionDocuments
import PagedReport.Proofs.ResultSetDocuments
import PagedReport.Proofs.TotalsReplies
import PagedReport.Proofs.LookAhead
import PagedReport.Proofs.HeadedPages
import PagedReport.Proofs.FormattedNumbers
import PagedReport.Proofs.RowOrder
import PagedReport.Proofs.GeneralNumbers
import PagedReport.Proofs.Csv.DataTypes
import PagedReport.Proofs.Csv.QuotedFields
import PagedReport.Proofs.Paint.TotalsLabels
import PagedReport.Proofs.Paint.StyledText
import PagedReport.Proofs.Thousands
import PagedReport.Proofs.TiledColumns
