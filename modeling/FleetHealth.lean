import FleetHealth.Aggregate
import FleetHealth.Calendar.Date
import FleetHealth.Calendar.Instant
import FleetHealth.Catalog
import FleetHealth.Config
import FleetHealth.Dashboard
import FleetHealth.Decimal.Digits
import FleetHealth.Decimal.Layout
import FleetHealth.Decimal.Numeral
import FleetHealth.Decimal.Shortest
import FleetHealth.Health
import FleetHealth.Metric
import FleetHealth.Proofs.Acceptance
import FleetHealth.Proofs.AcceptedRuns
import FleetHealth.Proofs.ArrivalOrder
import FleetHealth.Proofs.AverageBounds
import FleetHealth.Proofs.BetterReadings
import FleetHealth.Proofs.Binary64
import FleetHealth.Proofs.Binary64Order
import FleetHealth.Proofs.Binary64Quotients
import FleetHealth.Proofs.Binary64Rounding
import FleetHealth.Proofs.Binary64Sums
import FleetHealth.Proofs.BucketedDays
import FleetHealth.Proofs.Buckets
import FleetHealth.Proofs.ByteOrder
import FleetHealth.Proofs.CalendarText
import FleetHealth.Proofs.Classification
import FleetHealth.Proofs.CompensatedSums
import FleetHealth.Proofs.DashboardFormats
import FleetHealth.Proofs.DayAverages
import FleetHealth.Proofs.Delivery
import FleetHealth.Proofs.Documents
import FleetHealth.Proofs.ExactReads
import FleetHealth.Proofs.FlattenedDays
import FleetHealth.Proofs.FleetRollup
import FleetHealth.Proofs.FoldedNames
import FleetHealth.Proofs.Formats
import FleetHealth.Proofs.GroupStatistics
import FleetHealth.Proofs.HealthTiers
import FleetHealth.Proofs.Isolation
import FleetHealth.Proofs.JsonScalars
import FleetHealth.Proofs.JsonText
import FleetHealth.Proofs.KeyedFold
import FleetHealth.Proofs.LastAnswers
import FleetHealth.Proofs.Merge
import FleetHealth.Proofs.MergeLaws
import FleetHealth.Proofs.NestedRollups
import FleetHealth.Proofs.Numerals
import FleetHealth.Proofs.OffsetRange
import FleetHealth.Proofs.Outcomes
import FleetHealth.Proofs.QueryTexts
import FleetHealth.Proofs.RefreshedBatches
import FleetHealth.Proofs.SavedHistories
import FleetHealth.Proofs.SilentMetrics
import FleetHealth.Proofs.SnapshotCounts
import FleetHealth.Proofs.SoundRules
import FleetHealth.Proofs.Spellings
import FleetHealth.Proofs.StationFields
import FleetHealth.Proofs.StoredDays
import FleetHealth.Proofs.StoredRows
import FleetHealth.Proofs.Tallies
import FleetHealth.Proofs.TickAccounts
import FleetHealth.Proofs.TickOrder
import FleetHealth.Proofs.TrendAgreement
import FleetHealth.Proofs.TrendAnswers
import FleetHealth.Proofs.TrendOrder
import FleetHealth.Proofs.Windows
import FleetHealth.Proofs.WireFormats
import FleetHealth.Refresh
import FleetHealth.Rule
import FleetHealth.Sample
import FleetHealth.Schedule
import FleetHealth.Service
import FleetHealth.Station
import FleetHealth.StationView
import FleetHealth.Store
import FleetHealth.Stream
import FleetHealth.Summary
import FleetHealth.Text.Blank
import FleetHealth.Text.Percent
import FleetHealth.Text.Printable
import FleetHealth.Text.Quoted
import FleetHealth.Thresholds
import FleetHealth.Tree
import FleetHealth.Tree.Json.Printer
import FleetHealth.Tree.Json.Reader
import FleetHealth.Tree.Shape
import FleetHealth.Tree.Toml.Reader
import FleetHealth.Tree.Toml.Scalar
import FleetHealth.Tree.Toml.Section
import FleetHealth.Trend
import FleetHealth.Wire.Aggregate
import FleetHealth.Wire.Dashboard
import FleetHealth.Wire.Rule
import FleetHealth.Wire.Sample
import FleetHealth.Wire.Trend
import FleetHealth.Worker
