import ClipSearch.Calendar.Date
import ClipSearch.Calendar.Moment
import ClipSearch.Calendar.Reading
import ClipSearch.Catalog.Brand
import ClipSearch.Catalog.Clip
import ClipSearch.Catalog.Lenient
import ClipSearch.Catalog.LiveType
import ClipSearch.Catalog.Load
import ClipSearch.Catalog.Record
import ClipSearch.Catalog.RecordText
import ClipSearch.Catalog.Settings
import ClipSearch.Catalog.Written
import ClipSearch.Cli.Help
import ClipSearch.Cli.Line
import ClipSearch.Cli.Run
import ClipSearch.Decimal.Binary
import ClipSearch.Decimal.Read
import ClipSearch.Decimal.Shortest
import ClipSearch.Decimal.Text
import ClipSearch.Duration
import ClipSearch.Files
import ClipSearch.Json.Document
import ClipSearch.Json.Error
import ClipSearch.Json.Reader
import ClipSearch.Json.Value
import ClipSearch.Json.Writer
import ClipSearch.Main
import ClipSearch.Query.Form
import ClipSearch.Query.Parse
import ClipSearch.Query.Predicate
import ClipSearch.Query.Range
import ClipSearch.Query.Search
import ClipSearch.Query.Token
import ClipSearch.Text.Blank
import ClipSearch.Text.CaseTable
import ClipSearch.Text.Escape
import ClipSearch.Text.Lower
import ClipSearch.Text.Split
import ClipSearch.Proofs.TokenShapes
import ClipSearch.Proofs.QueryScan
import ClipSearch.Proofs.QueryLaws
import ClipSearch.Proofs.Digits
import ClipSearch.Proofs.FormTokens
import ClipSearch.Proofs.Labels
import ClipSearch.Proofs.DateText
import ClipSearch.Proofs.FloatBits
import ClipSearch.Proofs.Nearest
import ClipSearch.Proofs.Quotient
import ClipSearch.Proofs.FieldMatch
import ClipSearch.Proofs.DayRanges
import ClipSearch.Proofs.ScanWritten
import ClipSearch.Proofs.RecordValues
import ClipSearch.Proofs.Layout
import ClipSearch.Proofs.CatalogReadBack
import ClipSearch.Proofs.CatalogFiles
import ClipSearch.Proofs.Rounding
import ClipSearch.Proofs.CatalogLines
import ClipSearch.Proofs.DurationValues
import ClipSearch.Proofs.DurationInput
import ClipSearch.Proofs.ClockReadBack
import ClipSearch.Proofs.SearchPaths
import ClipSearch.Proofs.HomePath
import ClipSearch.Proofs.ShortestDigits
import ClipSearch.Proofs.SecondsRange
import ClipSearch.Proofs.FormQuery
